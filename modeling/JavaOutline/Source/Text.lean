/-!
# Text measured in bytes

A source text is a list of characters, and positions in it are counted in bytes of its UTF-8 form.
Cutting at a byte succeeds only on a boundary between characters.
-/

namespace JavaOutline

/-- The number of bytes of a text in UTF-8. -/
def byteLength : List Char → Nat
  | [] => 0
  | c :: cs => c.utf8Size + byteLength cs

@[simp] theorem byteLength_append (left right : List Char) :
    byteLength (left ++ right) = byteLength left + byteLength right := by
  induction left with
  | nil => simp [byteLength]
  | cons c cs induction => simp [byteLength, induction, Nat.add_assoc]

/-- What is left of a text after its first `n` bytes; `none` unless a character ends there. -/
def dropBytes? : List Char → Nat → Option (List Char)
  | cs, 0 => some cs
  | [], _ + 1 => none
  | c :: cs, n + 1 =>
    if c.utf8Size ≤ n + 1 then dropBytes? cs (n + 1 - c.utf8Size) else none

/-- The first `n` bytes of a text; `none` unless a character ends there. -/
def takeBytes? : List Char → Nat → Option (List Char)
  | _, 0 => some []
  | [], _ + 1 => none
  | c :: cs, n + 1 =>
    if c.utf8Size ≤ n + 1 then (takeBytes? cs (n + 1 - c.utf8Size)).map (c :: ·) else none

/-- The characters from byte `start` up to byte `stop`; `none` if the bounds are reversed, outside
the text, or inside a character. -/
def sliceBytes? (cs : List Char) (start stop : Nat) : Option (List Char) :=
  if start ≤ stop then (dropBytes? cs start).bind (takeBytes? · (stop - start)) else none

/-- A source text with its length in bytes. -/
structure Source where
  /-- The characters of the text. -/
  chars : List Char
  /-- The length of the text in bytes. -/
  size : Nat
  /-- The length is that of the characters. -/
  size_eq : size = byteLength chars := by rfl

/-- The source with the given text. -/
def Source.ofString (text : String) : Source where
  chars := text.toList
  size := byteLength text.toList

/-- Cutting a text in two gives back its parts. -/
theorem dropBytes?_append (left right : List Char) :
    dropBytes? (left ++ right) (byteLength left) = some right := by
  induction left with
  | nil => simp [byteLength, dropBytes?]
  | cons c cs induction =>
    obtain ⟨n, hn⟩ : ∃ n, byteLength (c :: cs) = n + 1 := by
      have := c.utf8Size_pos
      exact ⟨byteLength (c :: cs) - 1, by simp only [byteLength]; omega⟩
    have hsize : n + 1 - c.utf8Size = byteLength cs := by
      rw [← hn, byteLength]; omega
    have hle : c.utf8Size ≤ n + 1 := by
      rw [← hn, byteLength]; omega
    rw [hn, List.cons_append, dropBytes?, if_pos hle, hsize, induction]

end JavaOutline
