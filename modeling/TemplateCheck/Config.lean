import TemplateCheck.Text.CodePoint

/-!
# Configuration

What the checker recognises: the marker of templates, the framework module and its decorator, the
files it reads, and whether unused imports are reported. The strings are those of a configuration
file, which can spell what no source text holds.
-/

namespace TemplateCheck

/-- Settings of the checker. -/
structure Config where
  templateTag : WideText := WideText.ofText "html"
  frameworkModule : WideText := WideText.ofText "@neuralfog/elemix"
  componentDecorator : WideText := WideText.ofText "component"
  extensions : List WideText := [WideText.ofText ".ts", WideText.ofText ".tsx"]
  excludePaths : List WideText := [WideText.ofText "node_modules"]
  reportUnusedImports : Bool := true
  /-- The file that the settings were read from. -/
  source : Option Text := none
deriving DecidableEq, Repr

/-- Whether a module specifier denotes the framework or one of its parts. -/
def Config.isFrameworkModule (config : Config) (specifier : Text) : Bool :=
  config.frameworkModule.toText?.any fun name =>
    specifier = name || Text.startsWith (name ++ ['/']) specifier

end TemplateCheck
