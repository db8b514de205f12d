/-!
# Character ranges

A class of characters beyond ASCII is a table of closed code ranges.
-/

namespace TemplateCheck

/-- Whether the character, beyond ASCII, lies in one of the closed code ranges. -/
def inRanges (ranges : List (Nat × Nat)) (c : Char) : Bool :=
  if c.toNat < 0x80 then false
  else ranges.any fun range => range.1 ≤ c.toNat && c.toNat ≤ range.2

theorem inRanges_ascii (ranges : List (Nat × Nat)) {c : Char} (h : c.toNat < 0x80) :
    inRanges ranges c = false := by
  simp [inRanges, h]

end TemplateCheck
