import TemplateCheck.Check.Pipeline

/-!
# Editing sessions

An editor keeps one session for a project. Every edit is read into the program and published in the
registry, so that questions are answered without reading the whole program again.
-/

namespace TemplateCheck

/-- A program and the registry that goes with it. -/
structure Session where
  program : Program
  registry : Registry
deriving DecidableEq, Repr

namespace Session

/-- A session over a program. -/
def start (program : Program) : Session := ⟨program, Registry.empty.populate program⟩

/-- Takes a new version of a file. -/
def updateFile (session : Session) (path text : Text) : Session :=
  let program := session.program.addFile path text
  match program.file? path with
  | some file => ⟨program, session.registry.addFile program file⟩
  | none => ⟨program, session.registry⟩

/-- Forgets a file. -/
def removeFile (session : Session) (path : Text) : Session :=
  match session.program.file? path with
  | some file =>
    ⟨session.program.removeFile file.path, session.registry.removeFile file.path⟩
  | none => session

/-- The diagnostics of one file: those of the host after suppression, and those of the checker.
Without diagnostics of a host, unused imports are looked for here. -/
def diagnostics (session : Session) (path : Text) (host : Option (List Diagnostic)) :
    List Diagnostic :=
  match session.program.file? path with
  | none => host.getD []
  | some file =>
    let host := host.getD
      (if session.program.config.reportUnusedImports then
        findUnusedImports session.program file.path
      else [])
    (runPipeline host
      ⟨session.registry, session.program, TypeOracle.ofProgram session.program, some file.path⟩
      Stage.regular).diagnostics

end Session

end TemplateCheck
