import JavaOutline.Proofs.Token.Continued

/-!
# Tokens with other blanks between them

A token is found again when its characters are scanned alone, and a token behind which the text goes
on is found again when a space is put behind it. So the texts of the tokens, joined by single
spaces, scan into tokens of the same kinds and texts.
-/

namespace JavaOutline.Token

/-- Every token is a piece of the text. -/
theorem exists_pieceAt_of_mem {skip offset : Nat} {cs : List Char} {token : Token}
    (member : token ∈ scanFrom skip offset cs) :
    ∃ c rest more, pieceAt c rest = (more, some token.kind) ∧
      token.text = .ofList (c :: rest.take more) := by
  induction cs generalizing skip offset with
  | nil => simp [scanFrom] at member
  | cons c cs induction =>
      cases skip with
      | succ skip => exact induction member
      | zero =>
          rcases piece_eq : pieceAt c cs with ⟨more, kind?⟩
          simp only [scanFrom, piece_eq] at member
          cases kind? with
          | none => exact induction member
          | some kind =>
              rcases List.mem_cons.mp member with rfl | member
              · exact ⟨c, cs, more, piece_eq, rfl⟩
              · exact induction member

theorem lexemes_scanFrom_piece {c : Char} {cs : List Char} {more : Nat} {kind : TokenKind}
    (piece_eq : pieceAt c cs = (more, some kind)) (offset : Nat) :
    (scanFrom 0 offset (c :: cs.take more)).map lexeme = [(kind, .ofList (c :: cs.take more))] := by
  rw [scanFrom_eq_append (pieceAt_take piece_eq), List.take_take, Nat.min_self, List.drop_take,
    Nat.sub_self, List.take_zero]
  rfl

/-- The texts of some tokens with single spaces between them. -/
def respaced (tokens : List Token) : String :=
  " ".intercalate (tokens.map (·.text))

theorem toList_respaced_cons {token : Token} {tokens : List Token} (goes_on : tokens ≠ []) :
    (respaced (token :: tokens)).toList =
      token.text.toList ++ ' ' :: (respaced tokens).toList := by
  cases tokens with
  | nil => exact absurd rfl goes_on
  | cons following tokens =>
      simp only [respaced, List.map_cons, String.intercalate_cons_cons, String.toList_append,
        List.append_assoc]
      rfl

/-- With single spaces between them, the texts of the tokens scan into the same lexemes. -/
theorem lexemes_scanFrom_respaced (offset start : Nat) (cs : List Char) :
    (scanFrom 0 start (respaced (scanFrom 0 offset cs)).toList).map lexeme =
      (scanFrom 0 offset cs).map lexeme := by
  match cs with
  | [] => rfl
  | c :: cs =>
      rcases piece_eq : pieceAt c cs with ⟨more, kind?⟩
      have later (start : Nat) := lexemes_scanFrom_respaced
        (offset + byteLength (c :: cs.take more)) start (cs.drop more)
      rw [scanFrom_eq_append piece_eq]
      generalize tokens_eq : scanFrom 0 (offset + byteLength (c :: cs.take more)) (cs.drop more) =
        tokens at later
      cases kind? with
      | none => exact later start
      | some kind =>
          by_cases goes_on : tokens = []
          · subst goes_on
            simp only [pieceTokens, Option.toList_some, List.map_cons, List.map_nil,
              List.append_nil, respaced, String.intercalate_singleton, String.toList_ofList]
            exact lexemes_scanFrom_piece piece_eq start
          · have rest_ne : cs.drop more ≠ [] := by
              intro rest_eq
              rw [rest_eq] at tokens_eq
              exact goes_on tokens_eq.symm
            have length_eq : (cs.take more).length = more :=
              List.length_take_of_le
                (Nat.le_of_not_le fun short => rest_ne (List.drop_eq_nil_of_le short))
            have spaced : pieceAt c (cs.take more ++ ' ' :: (respaced tokens).toList) =
                (more, some kind) := by
              have whole : pieceAt c (cs.take more ++ ([] ++ cs.drop more)) =
                  ((cs.take more).length, some kind) := by
                rw [List.nil_append, List.take_append_drop, piece_eq, length_eq]
              have space : Ends false (' ' :: (respaced tokens).toList) :=
                ends_cons _ (.inl (by decide))
              refine (pieceAt_replace space rest_ne whole nofun nofun nofun).trans ?_
              rw [length_eq]
            rw [pieceTokens, Option.toList_some, List.map_singleton, List.singleton_append,
              toList_respaced_cons goes_on, String.toList_ofList, List.cons_append,
              scanFrom_eq_append spaced, List.take_left' length_eq, List.drop_left' length_eq]
            rw [List.map_append]
            exact congrArg ((kind, _) :: ·) (later _)
termination_by cs.length
decreasing_by
  simp only [List.length_drop, List.length_cons]
  omega

/-- Every token of a text is the one token of its own characters, and the texts of all of them, with
single spaces between them, scan into tokens of the same kinds and texts. -/
theorem scan_respaced (offset start : Nat) (text : List Char) :
    (∀ token ∈ scan offset text, (scan start token.text.toList).map lexeme = [token.lexeme]) ∧
      (scan start (respaced (scan offset text)).toList).map lexeme =
        (scan offset text).map lexeme := by
  refine ⟨fun token member => ?_, lexemes_scanFrom_respaced offset start text⟩
  obtain ⟨c, rest, more, piece_eq, text_eq⟩ := exists_pieceAt_of_mem member
  rw [text_eq, String.toList_ofList, scan, lexemes_scanFrom_piece piece_eq, lexeme, text_eq]

/-- A text with a shift that is two tokens and a character literal that does not end. -/
def shiftText : List Char := "a>>=b'/".toList

theorem mem_scan_shiftText : ⟨.character, "'/", ⟨5, 7⟩⟩ ∈ scan 0 shiftText := by
  have found : (scan 0 shiftText)[4]? = some ⟨.character, "'/", ⟨5, 7⟩⟩ := by
    decide +kernel
  exact List.mem_of_getElem? found

theorem scan_respaced_shiftText :
    respaced (scan 0 shiftText) = "a > >= b '/" ∧
      (scan 3 "'/".toList).map lexeme = [(.character, "'/")] ∧
      (scan 3 (respaced (scan 0 shiftText)).toList).map lexeme = (scan 0 shiftText).map lexeme := by
  obtain ⟨alone, joined⟩ := scan_respaced 0 3 shiftText
  refine ⟨?_, alone _ mem_scan_shiftText, joined⟩
  decide +kernel

end JavaOutline.Token
