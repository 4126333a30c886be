/-!
Blank characters and trimming. A character is blank when it has the Unicode property White_Space.
-/
namespace StagingMemory.Text

/-- The inclusive ranges of code points with the property White_Space. -/
def blankRanges : List (Nat × Nat) :=
  [(0x9, 0xD), (0x20, 0x20), (0x85, 0x85), (0xA0, 0xA0), (0x1680, 0x1680), (0x2000, 0x200A),
   (0x2028, 0x2029), (0x202F, 0x202F), (0x205F, 0x205F), (0x3000, 0x3000)]

def isBlank (c : Char) : Bool :=
  blankRanges.any fun (first, last) => first ≤ c.toNat && c.toNat ≤ last

def trimChars (s : List Char) : List Char :=
  ((s.dropWhile isBlank).reverse.dropWhile isBlank).reverse

theorem trimChars_of_not_blank {s : List Char} (h : ∀ c ∈ s, isBlank c = false) :
    trimChars s = s := by
  have keep : ∀ t : List Char, (∀ c ∈ t, isBlank c = false) → t.dropWhile isBlank = t := by
    intro t ht
    cases t with
    | nil => rfl
    | cons c r => simp [ht c (by simp)]
  have hr : ∀ c ∈ s.reverse, isBlank c = false := fun c hc => h c (by simpa using hc)
  simp [trimChars, keep s h, keep s.reverse hr]

end StagingMemory.Text
