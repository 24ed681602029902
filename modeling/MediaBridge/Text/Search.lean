/-!
# Searching texts

Whether one text occurs in another. Main statement: `occursIn_iff`.
-/

namespace MediaBridge.Text

/-- Whether a text occurs somewhere in another one. -/
def occursIn (needle : List Char) : List Char → Bool
  | [] => needle.isEmpty
  | c :: cs => needle.isPrefixOf (c :: cs) || occursIn needle cs

/-- What is found stands between what precedes and what follows it. -/
theorem occursIn_iff (needle cs : List Char) : occursIn needle cs = true ↔ needle <:+: cs := by
  induction cs with
  | nil => simp [occursIn]
  | cons c cs ih => simp [occursIn, ih, List.infix_cons_iff]

end MediaBridge.Text
