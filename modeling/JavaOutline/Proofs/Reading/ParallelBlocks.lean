import JavaOutline.Proofs.Reading.ParallelStatements

/-!
# Blocks read side by side

A block is read in the same way from two texts that differ in their offsets only, and from a text
and the part of it that ends with the block. In the second case the two may be exchanged: what stays
in the part when it is read from the part does so when it is read from the whole text.
-/

namespace JavaOutline

open Relocatable (relocate)

namespace Parser

/-- Reads a statement with at most `n` statements nested in each other, and others below that. -/
def stmtOver (bottom : Rules) (last : Parser Stmt) : Nat → Parser Stmt
  | 0 => last
  | n + 1 => fun cursor => stmtWith (rulesOver bottom (n + 1)) (stmtOver bottom last n) cursor

theorem stmtOver_stmtUpTo_zero (n : Nat) : stmtOver (rules 0) (stmtUpTo 0) n = stmtUpTo n := by
  induction n with
  | zero => rfl
  | succ n induction =>
      funext cursor
      rw [stmtOver, rulesOver_rules_zero, induction]
      rfl

end Parser

namespace Parallel

open JavaOutline.Parser

variable {texts : Parallel} {cursor before after other : Cursor}

/-- A text and the part of it before the tokens `old`. -/
def cut (old : List Token) : Parallel := ⟨id, monotone_id, old, []⟩

/-- A part of a text and the text, which goes on with the tokens `new`. -/
def uncut (new : List Token) : Parallel := ⟨id, monotone_id, [], new⟩

/-- Whether two texts differ in their offsets only, or the second is a part of the first. -/
def IsPart (texts : Parallel) : Prop :=
  texts.old = [] ∧ texts.new = [] ∨ ∃ old, texts = cut old

section Cut

variable {old : List Token}

theorem Mirrors.cut_eq (mirrors : (cut old).Mirrors cursor other) :
    cursor = ⟨other.rest ++ old, other.behind⟩ := by
  obtain ⟨window, rest_eq, rfl, -⟩ := mirrors.beside
  have window_eq : relocate id window = window := List.map_id window
  simp only [cut, window_eq, List.append_nil, id_eq] at rest_eq ⊢
  rw [← rest_eq]

theorem Mirrors.uncut_beside (mirrors : (cut old).Mirrors cursor other) :
    other.Beside id [] old cursor := by
  have cursor_eq := mirrors.cut_eq
  obtain ⟨window, rest_eq, rfl, seam⟩ := mirrors.beside
  have window_eq : relocate id window = window := List.map_id window
  simp only [cut, window_eq, List.append_nil, id_eq] at cursor_eq ⊢
  exact ⟨window, (List.append_nil _).symm, by rw [window_eq]; exact cursor_eq,
    seam.imp And.symm id⟩

/-- The part is inside the whole text up to its end. -/
theorem Mirrors.uncut_inside (mirrors : (cut old).Mirrors cursor other) :
    (uncut old).Inside other := by
  rcases mirrors.inside with whole | more
  · exact .inl whole.symm
  · refine .inr ?_
    rw [mirrors.cut_eq] at more
    simpa [cut, uncut] using more

/-- Places of the part before its end are places of the whole text. -/
theorem Mirrors.exists_mirrors (mirrors : (cut old).Mirrors cursor other)
    (reaches : other.Reaches after) (inside : (uncut old).Inside after) :
    ∃ middle, cursor.Reaches middle ∧ (cut old).Mirrors middle after := by
  induction reaches with
  | refl => exact ⟨cursor, .refl, mirrors⟩
  | @tail after reaches induction =>
      obtain ⟨middle, reaches, mirrors⟩ := induction (inside.of_reaches (.tail .refl))
      refine ⟨middle.tail, .tail reaches, mirrors.tail ?_⟩
      rcases inside with whole | more
      · exact .inl whole.symm
      · refine .inr ?_
        rw [mirrors.cut_eq]
        obtain ⟨rest, behind⟩ := after
        cases rest with
        | nil => exact absurd more (Nat.lt_irrefl _)
        | cons token rest => simpa [cut, uncut, Cursor.tail] using more

theorem Mirrors.uncut (tame : (cut old).Tame cursor) (mirrors : (cut old).Mirrors cursor other) :
    (uncut old).Mirrors other cursor := by
  refine ⟨mirrors.uncut_beside, fun after reaches inside found => ?_⟩
  obtain ⟨middle, reaches, mirrors⟩ := mirrors.exists_mirrors reaches inside
  have found : middle.isAt .atSign := mirrors.shows.isAt_eq .atSign ▸ found
  have stays := mirrors.annotations middle .refl mirrors.inside found
  have same := ( agree_skipAnnotation (tame.reaches reaches)).2 after mirrors (.inr stays)
  exact same.2.uncut_inside

theorem Tame.uncut (tame : (cut old).Tame cursor) (mirrors : (cut old).Mirrors cursor other) :
    (Parallel.uncut old).Tame other := by
  obtain ⟨⟨source, order⟩, kept⟩ := tame
  rw [mirrors.cut_eq] at order kept
  exact ⟨⟨source, order.boundary, order.order.of_append⟩, kept.of_append⟩

end Cut

theorem labelRulesAgree_rules (part : texts.IsPart) {n m bound : Nat} (enough : bound ≤ n)
    (enough' : bound + texts.new.length ≤ m + texts.old.length) :
    texts.LabelRulesAgree (rules n) (rules m) bound := by
  refine ⟨rulesAgree_rules texts enough enough',
    fun {cursor other} short tame mirrors outside => ?_⟩
  rcases part with whole | ⟨old, rfl⟩
  · exact absurd (.inl whole) outside
  · by_contra more
    have length_eq : other.rest.length + old.length = cursor.rest.length := mirrors.length_eq
    have enough' : bound ≤ m + old.length := enough'
    have back : (uncut old).RulesAgree (rules m) (rules n) (bound - old.length) :=
      rulesAgree_rules (uncut old) (by omega) (by simp only [uncut, List.length_nil]; omega)
    have stays : (uncut old).Inside ((rules m).conditional other).2 :=
      .inr (List.length_pos_iff.mpr more)
    have same := (back.conditional (by omega) (tame.uncut mirrors)).2 cursor (mirrors.uncut tame)
      (.inr stays)
    refine outside (.inr ?_)
    have length_eq : _ + 0 = _ + old.length := same.2.length_eq
    have positive := List.length_pos_iff.mpr more
    change old.length < _
    omega

/-- In a whole text, no value of a label is given up, so that the rules agree whatever they call
when they may no longer call each other. -/
theorem labelRulesAgree_rulesOver (whole : texts.old = [] ∧ texts.new = []) (bottom : Rules)
    {n m bound : Nat} (enough : bound ≤ n)
    (enough' : bound + texts.new.length ≤ m + texts.old.length) :
    texts.LabelRulesAgree (rules n) (rulesOver bottom m) bound :=
  ⟨rulesAgree_rulesOver texts bottom enough enough', fun _ _ _ outside =>
    absurd (.inl whole) outside⟩

/-- Statements agree, if enough of them may be nested in both texts, whatever is nested below that
in the second. -/
theorem stmtAgree_stmtOver {bottom : Rules} (last : Parser Stmt)
    (labels : ∀ {n m bound : Nat}, bound ≤ n →
      bound + texts.new.length ≤ m + texts.old.length →
        texts.LabelRulesAgree (rules n) (rulesOver bottom m) bound)
    {n m : Nat} (enough : n + texts.new.length ≤ m + texts.old.length) :
    texts.StmtAgree (stmtUpTo n) (stmtOver bottom last m) n := by
  induction n generalizing m with
  | zero => exact ⟨laidOut_stmtUpTo 0, nofun, nofun⟩
  | succ n induction =>
      refine ⟨laidOut_stmtUpTo (n + 1), fun _ _ => reads_stmtUpTo n _, fun {cursor} short => ?_⟩
      cases m with
      | zero =>
          refine .of_outside (triple_iff.mp (laidOut_stmtUpTo (n + 1) cursor) cursor rfl).reaches ?_
          rintro (⟨old_eq, new_eq⟩ | more)
          · rw [old_eq, new_eq] at enough
            exact absurd enough (Nat.not_succ_le_zero _)
          · omega
      | succ m =>
          refine .get fun other _ shows => ?_
          cases rest_eq : cursor.rest with
          | nil =>
              rw [shows.rest_nil rest_eq]
              refine .get fun other _ shows => .pure ?_
              rw [shows.behind_eq]
              rfl
          | cons token rest =>
              obtain ⟨more, other_eq⟩ := shows.rest_cons rest_eq
              rw [other_eq]
              exact agree_stmtAtWith (induction (by omega))
                (labels (Nat.le_refl _) enough) rest_eq
                (Nat.le_of_lt_succ short)

theorem stmtAgree_stmtUpTo (part : texts.IsPart) {n m : Nat}
    (enough : n + texts.new.length ≤ m + texts.old.length) :
    texts.StmtAgree (stmtUpTo n) (stmtUpTo m) n := by
  rw [← stmtOver_stmtUpTo_zero m]
  refine stmtAgree_stmtOver _ (fun {_ m _} enough enough' => ?_) enough
  rw [rulesOver_rules_zero]
  exact labelRulesAgree_rules part enough enough'

theorem agree_block (part : texts.IsPart) : texts.Agree False block block cursor := by
  intro tame
  have agree {m : Nat}
      (enough : cursor.rest.length + 1 + texts.new.length ≤ m + texts.old.length) :=
    agree_blockWith (stmtAgree_stmtUpTo part enough)
      ((reaches_accept .openBrace cursor).lt (Nat.lt_succ_self _)) tame
  have enough : cursor.rest.length + 1 + texts.new.length ≤
    cursor.rest.length + 1 + texts.new.length + texts.old.length := Nat.le_add_right _ _
  refine ⟨(agree enough).1, fun other mirrors within => ?_⟩
  have length_eq := mirrors.length_eq
  exact (agree (m := other.rest.length + 1) (by omega)).2 other mirrors within

/-- Every place of a text has its place in the same text at other offsets. -/
theorem mirrors_relocate (whole : texts.old = [] ∧ texts.new = []) (cursor : Cursor) :
    texts.Mirrors cursor ⟨relocate texts.move cursor.rest, texts.move cursor.behind⟩ := by
  refine ⟨⟨cursor.rest, ?_, ?_, .inl whole⟩, fun _ _ _ _ => .inl whole⟩
  · rw [whole.1, List.append_nil]
  · rw [whole.2, List.append_nil]

/-- Every place of a text is its own place in the same text. -/
theorem mirrors_self (cursor : Cursor) : (cut []).Mirrors cursor cursor := by
  have rest_eq : relocate id cursor.rest = cursor.rest := List.map_id _
  have mirrors : (cut []).Mirrors cursor ⟨relocate id cursor.rest, cursor.behind⟩ :=
    mirrors_relocate ⟨rfl, rfl⟩ cursor
  rwa [rest_eq] at mirrors

end Parallel

end JavaOutline
