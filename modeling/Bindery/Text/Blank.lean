/-!
# Blank characters

The characters of Unicode's `White_Space` property, and the trimming that is defined by them.
Main statement: `trimStart_eq_self_iff`, a text is its own trimmed start exactly when it does not
begin with a blank.
-/

namespace Bindery.Text

/-- A character with the `White_Space` property: the five ASCII controls from tab to carriage
return, the space, next-line, the no-break space, and the spaces and separators of the
general punctuation block and its neighbours. -/
def isBlank (c : Char) : Bool :=
  let n := c.toNat
  (9 ≤ n && n ≤ 13) || n = 32 || n = 0x85 || n = 0xA0 || n = 0x1680
    || (0x2000 ≤ n && n ≤ 0x200A) || n = 0x2028 || n = 0x2029 || n = 0x202F || n = 0x205F
    || n = 0x3000

/-- The text without its leading blanks. -/
def trimStart (cs : List Char) : List Char := cs.dropWhile isBlank

/-- The text without its trailing blanks. -/
def trimEnd (cs : List Char) : List Char := (cs.reverse.dropWhile isBlank).reverse

/-- The text without leading and trailing blanks. -/
def trim (s : String) : String := String.ofList (trimEnd (trimStart s.toList))

/-- A text of blanks only, the empty text included. -/
def isBlankText (s : String) : Bool := s.toList.all isBlank

/-- Nothing is trimmed exactly when the text does not begin with a blank. -/
theorem trimStart_eq_self_iff (cs : List Char) :
    trimStart cs = cs ↔ ∀ c, cs.head? = some c → isBlank c = false := by
  cases cs with
  | nil => simp [trimStart]
  | cons c r =>
    simp only [trimStart, List.dropWhile_cons, List.head?_cons, Option.some.injEq, forall_eq']
    cases h : isBlank c with
    | false => simp
    | true =>
      simp only [if_true, Bool.true_eq_false, iff_false]
      intro heq
      have hlen := congrArg List.length heq
      have hle := (List.dropWhile_sublist isBlank (l := r)).length_le
      simp at hlen
      omega

/-- Nothing is trimmed from a text without blanks. -/
theorem trim_eq_self {s : String} (h : ∀ c ∈ s.toList, isBlank c = false) : trim s = s := by
  have hstart : trimStart s.toList = s.toList :=
    (trimStart_eq_self_iff _).2 fun c hc => h c (List.mem_of_mem_head? hc)
  have hreverse : trimStart s.toList.reverse = s.toList.reverse :=
    (trimStart_eq_self_iff _).2 fun c hc => h c (List.mem_reverse.1 (List.mem_of_mem_head? hc))
  have hend : trimEnd s.toList = s.toList := by
    rw [trimEnd, ← trimStart, hreverse, List.reverse_reverse]
  rw [trim, hstart, hend, String.ofList_toList]

end Bindery.Text
