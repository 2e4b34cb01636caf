import JavaOutline.Proofs.Reading.ParallelBlocks

/-!
# Files read side by side

Two texts that differ in their offsets only have the same declarations, with the offsets moved. As
both have the same number of tokens left at every place, their loops end after as many repetitions.
-/

namespace JavaOutline

open Relocatable (relocate)

namespace Parallel

open JavaOutline.Parser

variable {texts : Parallel} {α : Type} [Relocatable α] {stays : Prop} {cursor : Cursor}

theorem Agree.pure_bind {β : Type} [Relocatable β] {value : α} {f g : α → Parser β}
    (later : texts.Agree stays (f value) (g (relocate texts.move value)) cursor) :
    texts.Agree stays (Pure.pure value >>= f) (Pure.pure (relocate texts.move value) >>= g)
      cursor :=
  later

/-! ## Repeating a step -/

theorem Agree.manyUpTo {step step' : Parser (Option α)} (n : Nat)
    (agree : ∀ after, cursor.Reaches after → texts.Agree stays step step' after) :
    texts.Agree stays (Parser.manyUpTo step n) (Parser.manyUpTo step' n) cursor := by
  induction n generalizing cursor with
  | zero => exact .pure rfl
  | succ n induction =>
      refine .bind_option (agree cursor .refl) (fun _ _ _ => .pure rfl)
        fun value after _ reaches => ?_
      refine .bind (induction fun later onward => agree later (reaches.trans onward))
        fun values _ _ _ => .pure rfl

theorem Agree.many_of_whole {step step' : Parser (Option α)}
    (whole : texts.old = [] ∧ texts.new = [])
    (agree : ∀ after, cursor.Reaches after → texts.Agree stays step step' after) :
    texts.Agree stays (Parser.many step) (Parser.many step') cursor := by
  intro tame
  have same := Agree.manyUpTo (cursor.rest.length + 1) agree tame
  refine ⟨same.1, fun other mirrors within => ?_⟩
  have length_eq := mirrors.length_eq
  rw [whole.1, whole.2] at length_eq
  have many_eq : Parser.many step' other =
      Parser.manyUpTo step' (cursor.rest.length + 1) other := by
    rw [← show other.rest.length = cursor.rest.length from length_eq]
    rfl
  rw [many_eq]
  exact same.2 other mirrors within

theorem Agree.repeatWhile_of_whole {step step' : Parser Bool}
    (whole : texts.old = [] ∧ texts.new = [])
    (agree : ∀ after, cursor.Reaches after → texts.Agree stays step step' after) :
    texts.Agree stays (Parser.repeatWhile step) (Parser.repeatWhile step') cursor := by
  refine .discard (.many_of_whole whole fun after reaches => ?_)
  exact .bind_bool (agree after reaches) (fun _ _ _ => .pure rfl) fun _ _ _ => .pure rfl

theorem filterMap_relocate (values : List (Option α)) :
    (relocate texts.move values).filterMap id = relocate texts.move (values.filterMap id) :=
  List.filterMap_map.trans List.map_filterMap.symm

/-- Reads the types of a file with at most `depth` types nested in each other. -/
def typesUpTo (depth : Nat) : Parser (List TypeDecl) := do
  let types ← many do
    if (← get).atEnd then return none
    match ← typeDeclUpTo depth with
    | some type => return some (some type)
    | none =>
      advance 1
      return some none
  return types.filterMap id

theorem typeDecls_apply (cursor : Cursor) :
    typeDecls cursor = typesUpTo (cursor.rest.length + 1) cursor :=
  rfl

/-! ## Methods -/

theorem agree_skipThrows : texts.Agree False skipThrows skipThrows cursor :=
  .bind_bool (agree_acceptWord _) (fun _ _ _ => agree_skipToAny _) fun _ _ _ => .pure rfl

section Whole

variable (whole : texts.old = [] ∧ texts.new = [])

include whole

theorem agree_parameters : texts.Agree False parameters parameters cursor := by
  refine .bind (.discard (agree_accept _ fun _ => by decide)) fun _ _ _ _ => ?_
  refine .bind (.many_of_whole whole fun after _ => ?_) fun parameters _ _ _ => ?_
  · refine .get fun other _ shows => ?_
    rw [shows.atEnd_eq, shows.isAt_eq]
    refine .ite (fun _ => .pure rfl) fun _ => ?_
    refine .bind agree_skipVariableModifiers fun _ _ _ _ => ?_
    refine .bind_option agree_parameter? (fun _ _ _ => ?_) fun parameter _ _ _ => ?_
    · exact .bind (agree_advance 1) fun _ _ _ _ => .pure rfl
    · exact .bind (.discard (agree_accept _ fun _ => by decide)) fun _ _ _ _ => .pure rfl
  · refine .bind (.discard (agree_accept _ fun _ => by decide)) fun _ _ _ _ => .pure ?_
    exact filterMap_relocate parameters

theorem agree_skipConstants : texts.Agree False skipConstants skipConstants cursor := by
  refine .repeatWhile_of_whole whole fun after _ => ?_
  refine .bind_bool (agree_accept _ fun _ => by decide) (fun _ _ _ => .pure rfl) fun _ _ _ => ?_
  refine .get fun other _ shows => ?_
  rw [shows.atEnd_eq, shows.isAt_eq]
  refine .ite (fun _ => .pure rfl) fun _ => ?_
  refine .bind agree_skipModifiers fun _ _ _ _ => ?_
  refine .get fun other _ shows => ?_
  rw [shows.isAt_eq]
  refine .ite (fun _ => ?_) fun _ => .pure rfl
  refine .bind (agree_advance 1) fun _ _ _ _ => ?_
  refine .bind (agree_skipBalanced _ _) fun _ _ _ _ => ?_
  refine .bind (agree_skipBalanced _ _) fun _ _ _ _ => ?_
  exact .bind (.discard (agree_accept _ fun _ => by decide)) fun _ _ _ _ => .pure rfl

theorem agree_constructorFrom (start : Nat) (name : Token) :
    texts.Agree False (constructorFrom start name)
      (constructorFrom (texts.move start) (relocate texts.move name)) cursor := by
  refine .bind (agree_advance 1) fun _ _ _ _ => ?_
  refine .get fun other _ shows => ?_
  rw [shows.isAt_eq]
  refine .ite_bind (fun _ => agree_parameters whole) (fun _ => .pure rfl)
    fun parameters _ _ _ => ?_
  refine .bind agree_skipThrows fun _ _ _ _ => ?_
  refine .get fun other _ shows => ?_
  rw [shows.isAt_eq]
  refine .ite_bind (fun _ => .map (agree_block (.inl whole)) fun _ => rfl) (fun _ => .pure rfl)
    fun body _ _ _ => ?_
  exact .bind (.spanFrom _) fun span _ _ _ => .pure rfl

/-- A method after its header. -/
theorem agree_methodEnd (start : Nat) (result : TypeRef) (name : Token)
    (parameters : List Parameter) :
    let parser (start : Nat) (result : TypeRef) (name : Token) (parameters : List Parameter) :
        Parser Method := do
      let body ← if (← get).isAt .openBrace then some <$> block else do
        discard <| accept .semicolon
        pure none
      return ⟨← Parser.spanFrom start, some result, ⟨name.text, name.span⟩, parameters, body⟩
    texts.Agree False (parser start result name parameters)
      (parser (texts.move start) (relocate texts.move result) (relocate texts.move name)
        (relocate texts.move parameters)) cursor := by
  refine .get fun other _ shows => ?_
  rw [shows.isAt_eq]
  refine .ite (fun _ => ?_) fun _ => ?_
  · refine .bind (.map (agree_block (.inl whole)) fun _ => rfl) fun body _ _ _ => ?_
    exact .bind (.spanFrom _) fun span _ _ _ => .pure rfl
  · refine .bind (.discard (agree_accept _ fun _ => by decide)) fun _ _ _ _ => .pure_bind ?_
    exact .bind (.spanFrom _) fun span _ _ _ => .pure rfl

theorem agree_methodFrom (start : Nat) (result : TypeRef) (name : Token) :
    texts.Agree False (methodFrom start result name)
      (methodFrom (texts.move start) (relocate texts.move result) (relocate texts.move name))
      cursor := by
  refine .bind (agree_parameters whole) fun parameters _ _ _ => ?_
  refine .bind (.repeatWhile_of_whole whole fun after _ => ?_) fun _ _ _ _ => ?_
  · refine .get fun other _ shows => ?_
    rw [shows.isAt_eq]
    exact .bind (agree_skipBalanced _ _) fun _ _ _ _ => .pure rfl
  refine .bind agree_skipThrows fun _ _ _ _ => ?_
  refine .bind_bool (agree_acceptWord _) (fun _ _ _ => ?_) fun _ _ _ => ?_
  · exact .bind (agree_skipTo _) fun _ _ _ _ => agree_methodEnd whole start result name parameters
  · exact agree_methodEnd whole start result name parameters

theorem agree_typedMember? (start : Nat) :
    texts.Agree False (typedMember? start) (typedMember? (texts.move start)) cursor := by
  refine .bind_option agree_typeRef? (fun _ _ _ => .pure rfl) fun type after _ _ => ?_
  refine .get fun other _ shows => ?_
  cases rest_eq : after.rest with
  | nil =>
      rw [shows.rest_nil rest_eq]
      exact .pure rfl
  | cons name rest =>
      obtain ⟨more, other_eq⟩ := shows.rest_cons rest_eq
      rw [other_eq]
      refine .ite (fun _ => ?_) fun _ => .pure rfl
      refine .bind (agree_advance 1) fun _ _ _ _ => ?_
      refine .get fun other _ shows => ?_
      rw [shows.isAt_eq]
      refine .ite (fun _ => ?_) fun _ => ?_
      · exact .bind (agree_methodFrom whole start type name) fun method _ _ _ => .pure rfl
      · refine .bind (agree_skipTo _) fun _ _ _ _ => ?_
        refine .bind (.discard (agree_accept _ fun _ => by decide)) fun _ _ _ _ => ?_
        exact .bind (.spanFrom _) fun span _ _ _ => .pure rfl

/-! ## Types -/

section Types

variable {type? type?' : Parser (Option TypeDecl)}
  (types : ∀ cursor, texts.Agree False type? type?' cursor)

include types

theorem agree_memberWith (enclosing : String) :
    texts.Agree False (memberWith type? enclosing) (memberWith type?' enclosing) cursor := by
  refine .get fun other _ shows => ?_
  rw [shows.here_eq]
  refine .bind agree_skipModifiers fun _ _ _ _ => ?_
  refine .bind (agree_skipBalanced _ _) fun _ after _ _ => ?_
  refine .get fun other _ shows => ?_
  rw [shows.isAtWord_and_isAhead_eq, shows.isAt_eq, shows.typeKind?_eq]
  refine .ite (fun _ => ?_) fun _ => .ite (fun _ => ?_) fun _ => .ite (fun _ => ?_) fun _ => ?_
  · refine .bind (agree_advance 1) fun _ _ _ _ => ?_
    refine .bind (agree_block (.inl whole)) fun body _ _ _ => ?_
    exact .bind (.spanFrom _) fun span _ _ _ => .pure rfl
  · refine .bind (agree_block (.inl whole)) fun body _ _ _ => ?_
    exact .bind (.spanFrom _) fun span _ _ _ => .pure rfl
  · refine .bind (types _) fun type _ _ _ => .pure ?_
    cases type with
    | none => rfl
    | some type => exact congrArg some (congrArg _ (Member.relocateAll_eq _ _).symm)
  · cases rest_eq : after.rest with
    | nil =>
        rw [shows.rest_nil rest_eq]
        exact .pure rfl
    | cons name rest =>
        obtain ⟨more, other_eq⟩ := shows.rest_cons rest_eq
        rw [other_eq]
        have ahead_eq : ((relocate texts.move name).isWord enclosing &&
              other.isAhead 1 [.openParen, .openBrace]) =
            (name.isWord enclosing && after.isAhead 1 [.openParen, .openBrace]) := by
          have asked := shows.isAtWord_and_isAhead_eq enclosing [.openParen, .openBrace]
          rwa [Cursor.isAtWord, Cursor.isAtWord, rest_eq, other_eq] at asked
        simp only [ahead_eq]
        refine .ite (fun _ => ?_) fun _ => agree_typedMember? whole _
        exact .bind (agree_constructorFrom whole _ name) fun method _ _ _ => .pure rfl

theorem agree_membersWith (enclosing : String) :
    texts.Agree False (membersWith type? enclosing) (membersWith type?' enclosing) cursor := by
  refine .bind (.many_of_whole whole fun after _ => ?_) fun members _ _ _ => ?_
  · refine .get fun other _ shows => ?_
    rw [shows.atEnd_eq, shows.isAt_eq]
    refine .ite (fun _ => .pure rfl) fun _ => ?_
    refine .bind_option (agree_memberWith whole types enclosing) (fun _ _ _ => ?_)
      fun member _ _ _ => .pure rfl
    exact .bind (agree_advance 1) fun _ _ _ _ => .pure rfl
  · exact .pure (filterMap_relocate members)

/-- A type after its name. -/
theorem agree_typeEnd (start : Nat) (kind : TypeKind) (name : Name) :
    let parser (type? : Parser (Option TypeDecl)) (start : Nat) (name : Name) :
        Parser (Option TypeDecl) := do
      skipHeader
      let members ← if ← accept .openBrace then do
          if kind = .enumType then skipConstants
          let members ← membersWith type? name.text
          discard <| accept .closeBrace
          pure members
        else pure []
      return some ⟨⟨← Parser.spanFrom start, kind, name⟩, members⟩
    texts.Agree False (parser type? start name)
      (parser type?' (texts.move start) (relocate texts.move name)) cursor := by
  refine .bind agree_skipHeader fun _ _ _ _ => ?_
  refine .bind_bool (agree_accept _ fun _ => by decide) (fun _ _ _ => ?_) fun _ _ _ => ?_
  · refine .ite (fun _ => ?_) fun closed => (closed rfl).elim
    refine .ite (fun _ => ?_) fun _ => ?_
    · refine .bind (agree_skipConstants whole) fun _ _ _ _ => ?_
      refine .bind (agree_membersWith whole types name.text) fun members _ _ _ => ?_
      refine .bind (.discard (agree_accept _ False.elim)) fun _ _ _ _ => .pure_bind ?_
      exact .bind (.spanFrom _) fun span _ _ _ => .pure rfl
    · refine .bind (agree_membersWith whole types name.text) fun members _ _ _ => ?_
      refine .bind (.discard (agree_accept _ False.elim)) fun _ _ _ _ => .pure_bind ?_
      exact .bind (.spanFrom _) fun span _ _ _ => .pure rfl
  · refine .pure_bind ?_
    exact .bind (.spanFrom _) fun span _ _ _ => .pure rfl

theorem agree_typeDeclWith :
    texts.Agree False (typeDeclWith type?) (typeDeclWith type?') cursor := by
  refine .look fun origin' _ origin_shows => ?_
  refine .bind agree_skipModifiers fun _ after _ _ => ?_
  refine .get fun other _ shows => ?_
  rw [shows.typeKind?_eq]
  split
  · refine Agree.resume (.bind (agree_advance _) fun _ after _ _ => ?_)
    refine .get fun other _ shows => ?_
    rw [shows.isAt_eq, shows.here_eq, origin_shows.here_eq]
    refine .ite_bind (fun _ => agree_next? False.elim) (fun _ => .pure rfl) fun name _ _ _ => ?_
    cases name with
    | none => exact agree_typeEnd whole types _ _ ⟨"", .point _⟩
    | some token => exact agree_typeEnd whole types _ _ ⟨token.text, token.span⟩
  · exact .restore (.pure rfl)

end Types

theorem agree_typeDeclUpTo (n : Nat) :
    texts.Agree False (typeDeclUpTo n) (typeDeclUpTo n) cursor := by
  induction n generalizing cursor with
  | zero => exact .pure rfl
  | succ n induction => exact agree_typeDeclWith whole fun _ => induction

theorem agree_typesUpTo (depth : Nat) :
    texts.Agree False (typesUpTo depth) (typesUpTo depth) cursor := by
  refine .bind (.many_of_whole whole fun after _ => ?_) fun types _ _ _ => ?_
  · refine .get fun other _ shows => ?_
    rw [shows.atEnd_eq]
    refine .ite (fun _ => .pure rfl) fun _ => ?_
    refine .bind_option (agree_typeDeclUpTo whole _) (fun _ _ _ => ?_) fun type _ _ _ => .pure rfl
    exact .bind (agree_advance 1) fun _ _ _ _ => .pure rfl
  · exact .pure (filterMap_relocate types)

theorem agree_typeDecls : texts.Agree False typeDecls typeDecls cursor := by
  intro tame
  refine ⟨(agree_typesUpTo whole _ tame).1, fun other mirrors within => ?_⟩
  have length_eq := mirrors.length_eq
  rw [whole.1, whole.2] at length_eq
  have depth_eq : other.rest.length = cursor.rest.length := length_eq
  rw [typeDecls_apply, typeDecls_apply, depth_eq] at *
  exact (agree_typesUpTo whole _ tame).2 other mirrors within

theorem agree_skipImports :
    let parser : Parser Unit := repeatWhile do
      let isImport := (← get).isAtWord "import"
      if isImport then
        skipToAny [.semicolon]
        discard <| accept .semicolon
      return isImport
    texts.Agree False parser parser cursor := by
  refine .repeatWhile_of_whole whole fun after _ => ?_
  refine .get fun other _ shows => ?_
  rw [shows.isAtWord_eq]
  refine .ite (fun _ => ?_) fun _ => .pure rfl
  refine .bind (agree_skipToAny _) fun _ _ _ _ => ?_
  exact .bind (.discard (agree_accept _ fun _ => by decide)) fun _ _ _ _ => .pure rfl

/-- A file is read at other offsets, if it begins at the same. -/
theorem agree_compilationUnit (size : Nat) (origin : texts.move 0 = 0) :
    texts.Agree False (compilationUnit size) (compilationUnit (texts.move size)) cursor := by
  have found (package : Option String) (types : List TypeDecl) :
      (⟨⟨0, texts.move size⟩, package, relocate texts.move types⟩ : CompilationUnit) =
        relocate texts.move ⟨⟨0, size⟩, package, types⟩ := by
    refine congrArg (CompilationUnit.mk · package _) ?_
    exact congrArg (Span.mk · _) origin.symm
  refine .bind_bool (agree_acceptWord _) (fun _ _ _ => ?_) fun _ _ _ => ?_
  · refine .bind agree_qualifiedName fun name _ _ _ => ?_
    refine .bind (.discard (agree_accept _ fun _ => by decide)) fun _ _ _ _ => .pure_bind ?_
    refine .bind (agree_skipImports whole) fun _ _ _ _ => ?_
    exact .bind (agree_typeDecls whole) fun types _ _ _ => .pure (found _ types)
  · refine .pure_bind (.bind (agree_skipImports whole) fun _ _ _ _ => ?_)
    exact .bind (agree_typeDecls whole) fun types _ _ _ => .pure (found _ types)

end Whole

end Parallel

end JavaOutline
