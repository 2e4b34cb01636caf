import Mathlib
import JavaOutline.Proofs.Java.TypeTexts

/-!
# Renderings keep the tokens that are shown

If the tokens of the source from one place to another have the fates of some reading of an
expression, then the rendering of the expression scans into the tokens that are shown, parentheses
apart. That takes two things. Some token of the source stands behind the expression, so that none of
its tokens runs to the end of the source; and no two of the tokens that are shown become one where
the rendering puts them next to each other.
-/

namespace JavaOutline

open scoped Computability
open Token (Scans Ends takesDot lexeme spelled)

/-- Some texts without the parentheses among them. -/
def unparen (texts : List String) : List String :=
  texts.filter fun text => text ≠ "(" && text ≠ ")"

@[simp] theorem unparen_nil : unparen [] = [] := rfl

@[simp] theorem unparen_append (left right : List String) :
    unparen (left ++ right) = unparen left ++ unparen right :=
  List.filter_append ..

namespace Fate

/-- Whether something is shown. -/
def isKept : Fate → Bool
  | passed _ | lost _ _ | absent _ => false
  | _ => true

/-- The fates by which something is shown. -/
def kept (fates : List Fate) : List Fate := fates.filter isKept

/-- Whether what is shown by one fate and what is shown by the next stay two tokens. -/
def Apart : Fate → Fate → Prop
  | typed token, typed following => token.ApartInType following
  | fate, following => ∀ token ∈ fate.token?, ∀ next ∈ following.token?, token.Apart next

/-- Whether no two tokens that are shown one after the other become one. -/
def Spaced (fates : List Fate) : Prop := (kept fates).IsChain Apart

/-- Whether a dot may stand behind what is shown without becoming part of it. -/
def Selectable (fates : List Fate) : Prop :=
  ∀ last ∈ (kept fates).getLast?, ∀ token ∈ last.token?, takesDot token.kind = false

variable {fates left right : List Fate} {fate following : Fate}

@[simp] theorem kept_nil : kept [] = [] := rfl

@[simp] theorem kept_append (left right : List Fate) :
    kept (left ++ right) = kept left ++ kept right :=
  List.filter_append ..

@[simp] theorem kept_map_shown (found : List Token) : kept (found.map shown) = found.map shown :=
  List.filter_eq_self.mpr fun fate member => by
    obtain ⟨token, -, rfl⟩ := List.mem_map.mp member
    rfl

@[simp] theorem kept_map_passed (found : List Token) : kept (found.map passed) = [] :=
  List.filter_eq_nil_iff.mpr fun fate member => by
    obtain ⟨token, -, rfl⟩ := List.mem_map.mp member
    exact Bool.false_ne_true

@[simp] theorem kept_lostBefore (run behind : List Token) : kept (lostBefore run behind) = [] := by
  induction run with
  | nil => rfl
  | cons token run induction => exact induction

@[simp] theorem texts_append (left right : List Fate) :
    texts (left ++ right) = texts left ++ texts right :=
  List.filterMap_append

@[simp] theorem texts_map_shown (found : List Token) :
    texts (found.map shown) = found.map (·.text) := by
  simp [texts, text?, List.filterMap_map, Function.comp_def]

theorem texts_kept (fates : List Fate) : texts (kept fates) = texts fates := by
  rw [texts, kept, List.filterMap_filter]
  exact List.filterMap_congr fun fate _ => by cases fate <;> rfl

theorem typeText_kept (fates : List Fate) : typeText (kept fates) = typeText fates := by
  rw [typeText, kept, List.filterMap_filter]
  exact congrArg String.join (List.filterMap_congr fun fate _ => by cases fate <;> rfl)

theorem mem_tokens_of_mem_kept {token : Token} (member : fate ∈ kept fates)
    (found : fate.token? = some token) : token ∈ tokens fates :=
  List.mem_filterMap.mpr ⟨fate, (List.mem_filter.mp member).1, found⟩

theorem Apart.dots (apart : fate.Apart following) :
    ∀ token ∈ fate.token?, ∀ next ∈ following.token?, token.Apart next := by
  cases fate <;> cases following <;> first | exact apart | skip
  rintro token ⟨rfl⟩ next ⟨rfl⟩
  exact apart.1

/-! ## Fates of tokens of the source -/

/-- Whether some fates are those of tokens of the source that stand one after the other, not at its
end, and stay apart. -/
structure Stands (source : Source) (fates : List Fate) : Prop where
  spaced : Spaced fates
  within : ∃ front later, Token.scan 0 source.chars = front ++ tokens fates ++ later ∧ later ≠ []

namespace Stands

variable {source : Source}

theorem of_append_left (stands : Stands source (left ++ right)) : Stands source left := by
  obtain ⟨spaced, front, later, scan_eq, goes_on⟩ := stands
  rw [Spaced, kept_append] at spaced
  refine ⟨(List.isChain_append.mp spaced).1, front, tokens right ++ later, ?_, by simp [goes_on]⟩
  rw [scan_eq, tokens_append]
  simp only [List.append_assoc]

theorem of_append_right (stands : Stands source (left ++ right)) : Stands source right := by
  obtain ⟨spaced, front, later, scan_eq, goes_on⟩ := stands
  rw [Spaced, kept_append] at spaced
  refine ⟨(List.isChain_append.mp spaced).2.1, front ++ tokens left, later, ?_, goes_on⟩
  rw [scan_eq, tokens_append]
  simp only [List.append_assoc]

theorem mem_scan (stands : Stands source fates) {token : Token} (member : token ∈ tokens fates) :
    token ∈ Token.scan 0 source.chars := by
  obtain ⟨-, front, later, scan_eq, -⟩ := stands
  rw [scan_eq]
  exact List.mem_append_left _ (List.mem_append_right _ member)

/-- What is in front of a dot that is shown may have a dot behind it. -/
theorem selectable (stands : Stands source (left ++ right)) {dot : Token} {more : List Fate}
    (kept_eq : kept right = shown dot :: more) (kind_eq : dot.kind = .dot) : Selectable left := by
  have spaced := stands.spaced
  rw [Spaced, kept_append, kept_eq] at spaced
  intro last found token token_eq
  have apart := (List.isChain_append.mp spaced).2.2 last found _ rfl
  by_contra takes
  exact (apart.dots token token_eq dot rfl (Bool.eq_true_of_not_eq_false takes)).1 kind_eq

end Stands

end Fate

namespace Token

variable {text : String} {next : List Char → Prop} {spelling later : Language Token}

theorem Scans.widen (scans : Scans text next spelling) (le : spelling ≤ later) :
    Scans text next later := by
  intro offset rest allowed
  obtain ⟨tokens, member, scan_eq⟩ := scans offset rest allowed
  exact ⟨tokens, le member, scan_eq⟩

end Token

open Fate (shows showsKinds supplies passes upTo lacks copies loses stray
  annotation passedGroup kept texts tokens Stands Selectable)

/-- The tokens that have the texts which some fates show, parentheses apart. -/
def renderedAs (fates : List Fate) : Language Token :=
  {tokens | unparen (tokens.map (·.text)) = unparen (texts fates)}

theorem renderedAs_mul_le (left right : List Fate) :
    renderedAs left * renderedAs right ≤ renderedAs (left ++ right) := by
  rintro _ ⟨found, left_eq, found', right_eq, rfl⟩
  change unparen ((found ++ found').map (·.text)) = unparen (texts (left ++ right))
  have left_eq : unparen (found.map (·.text)) = unparen (texts left) := left_eq
  have right_eq : unparen (found'.map (·.text)) = unparen (texts right) := right_eq
  rw [List.map_append, unparen_append, left_eq, right_eq, Fate.texts_append, unparen_append]

theorem spelled_le_renderedAs {lexemes : List Token.Lexeme} {fates : List Fate}
    (texts_eq : unparen (texts fates) = unparen (lexemes.map (·.2))) :
    spelled lexemes ≤ renderedAs fates := by
  rintro found ⟨rfl, -⟩
  change unparen (found.map (·.text)) = _
  rw [texts_eq, List.map_map]
  rfl

/-- Whether a text begins with a character that ends every token in front of it. -/
def BeginsEnding (text : String) : Prop :=
  ∃ c more, text.toList = c :: more ∧ c ∈ [' ', ')', ']', ',', '[', '(']

theorem BeginsEnding.append {text : String} (begins : BeginsEnding text) (following : String) :
    BeginsEnding (text ++ following) := by
  obtain ⟨c, more, chars_eq, member⟩ := begins
  exact ⟨c, more ++ following.toList, by rw [String.toList_append, chars_eq]; rfl, member⟩

/-- Whether, for tokens with the fates of a language, a text scans into what is shown of them. What
is closed may have any text behind it; else a character must follow that ends tokens, or a dot if
one may. -/
def Renders (source : Source) (closed : Bool) (language : Language Fate) (text : String) : Prop :=
  ∀ fates ∈ language, Stands source fates → ∀ dot, (dot = true → Selectable fates) →
    Scans text (fun rest => closed = true ∨ Ends dot rest) (renderedAs fates)

/-- Whether nothing is shown of the tokens with the fates of a language. -/
def Silent (language : Language Fate) : Prop := ∀ fates ∈ language, kept fates = []

namespace Silent

variable {left right : Language Fate}

theorem one : Silent 1 := by
  rintro fates rfl
  rfl

theorem passes (language : Language Token) : Silent (passes language) := by
  rintro _ ⟨found, -, rfl⟩
  exact Fate.kept_map_passed found

theorem loses (language : Language Token) (allowed : List Token → List Token → Prop) :
    Silent (loses language allowed) := by
  rintro _ ⟨run, -, behind, -, rfl⟩
  exact Fate.kept_lostBefore run behind

theorem upTo (silent : Silent left) (P : List Token → List Token → Prop) :
    Silent (upTo left P) := by
  rintro _ ⟨fates, member, behind, -, rfl⟩
  exact (Fate.kept_append _ _).trans (congrArg (· ++ []) (silent fates member))

theorem lacks (sort : Token → Prop) : Silent (lacks sort) :=
  one.upTo _

theorem add (first : Silent left) (second : Silent right) : Silent (left + right) :=
  fun fates member => member.elim (first fates) (second fates)

theorem mul (first : Silent left) (second : Silent right) : Silent (left * right) := by
  rintro _ ⟨fates, member, fates', member', rfl⟩
  refine (Fate.kept_append _ _).trans ?_
  rw [first fates member, second fates' member', List.nil_append]

theorem kstar (silent : Silent left) : Silent left∗ := by
  rintro _ ⟨parts, rfl, parts_mem⟩
  induction parts with
  | nil => rfl
  | cons part parts induction =>
      obtain ⟨part_mem, parts_mem⟩ := List.forall_mem_cons.mp parts_mem
      rw [List.flatten_cons, Fate.kept_append, silent part part_mem, induction parts_mem,
        List.nil_append]

theorem lead (expr : Expr) : Silent expr.lead := by
  rcases expr.lead_eq_or with nothing | primary
  · exact nothing ▸ one
  · exact primary ▸ (passes _).kstar

theorem trail (expr : Expr) : Silent expr.trail := by
  rcases expr.trail_eq_or with nothing | primary
  · exact nothing ▸ one
  · exact primary ▸ ((loses _ _).add (loses _ _)).kstar

theorem passedGroup : Silent passedGroup :=
  (passes ⊤).upTo _

theorem annotation : Silent annotation :=
  ((passes _).mul (one.add ((passes _).mul (passes _).kstar))).mul passedGroup

end Silent

namespace Renders

variable {source : Source} {closed closed' : Bool} {left right : Language Fate}
  {text text' : String}

theorem open_ (renders : Renders source closed left text) : Renders source false left text := by
  intro fates member stands dot selectable
  exact (renders fates member stands dot selectable).mono fun rest ends =>
    .inr (ends.resolve_left Bool.false_ne_true)

theorem mono (renders : Renders source closed right text) (le : left ≤ right) :
    Renders source closed left text :=
  fun fates member => renders fates (le member)

theorem add (first : Renders source closed left text) (second : Renders source closed right text) :
    Renders source closed (left + right) text :=
  fun fates member => member.elim (first fates) (second fates)

/-- What is shown may be put in front of something else if that goes on with what may follow. -/
theorem append (first : Renders source closed left text)
    (second : Renders source closed' right text')
    (allows : ∀ fates fates', fates' ∈ right → Stands source (fates ++ fates') →
      ∃ dot, (dot = true → Selectable fates) ∧
        ∀ rest, closed = true ∨ Ends dot (text'.toList ++ rest)) :
    Renders source closed' (left * right) (text ++ text') := by
  rintro _ ⟨fates, member, fates', member', rfl⟩ stands dot selectable
  obtain ⟨before, before_selectable, ends⟩ := allows fates fates' member' stands
  have scans := first fates member stands.of_append_left before before_selectable
  have scans' := second fates' member' stands.of_append_right dot fun dot_eq last found =>
    selectable dot_eq last (by
      change last ∈ (kept (fates ++ fates')).getLast?
      rw [Fate.kept_append, List.getLast?_append, found]
      rfl)
  exact (scans.append scans' fun rest _ => ends rest).widen (renderedAs_mul_le _ _)

/-- What begins with a blank, a bracket or a comma ends what is in front of it. -/
theorem mul (first : Renders source closed left text) (second : Renders source closed' right text')
    (begins : closed = true ∨ BeginsEnding text') :
    Renders source closed' (left * right) (text ++ text') := by
  refine first.append second fun fates fates' _ _ => ⟨false, nofun, fun rest => ?_⟩
  refine begins.imp_right ?_
  rintro ⟨c, more, chars_eq, member⟩
  rw [chars_eq]
  exact Token.ends_cons _ (.inl member)

/-- A dot that is a token of its own in the source ends what is in front of it. -/
theorem mul_dot (first : Renders source closed left text)
    (second : Renders source closed' right ("." ++ text'))
    (begins : ∀ fates ∈ right, ∃ dot more, kept fates = .shown dot :: more ∧ dot.kind = .dot) :
    Renders source closed' (left * right) (text ++ ("." ++ text')) := by
  refine first.append second fun fates fates' member stands =>
    ⟨true, fun _ => ?_, fun rest => .inr ⟨'.', text'.toList ++ rest, ?_, .inr ⟨rfl, rfl⟩⟩⟩
  · obtain ⟨dot, more, kept_eq, kind_eq⟩ := begins fates' member
    exact stands.selectable kept_eq kind_eq
  · rw [String.toList_append, List.append_assoc]
    rfl

theorem skip_right (renders : Renders source closed left text) (silent : Silent right) :
    Renders source closed (left * right) text := by
  rintro _ ⟨fates, member, fates', member', rfl⟩ stands dot selectable
  have kept_eq := silent fates' member'
  have texts_eq : texts fates' = [] := by rw [← Fate.texts_kept, kept_eq]; rfl
  have same : renderedAs (fates ++ fates') = renderedAs fates := by
    rw [renderedAs, Fate.texts_append, texts_eq, List.append_nil]
    rfl
  have scans := renders fates member stands.of_append_left dot fun dot_eq last found =>
    selectable dot_eq last (by
      change last ∈ (kept (fates ++ fates')).getLast?
      rwa [Fate.kept_append, kept_eq, List.append_nil])
  exact same ▸ scans

theorem skip_left (renders : Renders source closed left text) (silent : Silent right) :
    Renders source closed (right * left) text := by
  rintro _ ⟨fates', member', fates, member, rfl⟩ stands dot selectable
  have kept_eq := silent fates' member'
  have texts_eq : texts fates' = [] := by rw [← Fate.texts_kept, kept_eq]; rfl
  have same : renderedAs (fates' ++ fates) = renderedAs fates := by
    rw [renderedAs, Fate.texts_append, texts_eq, List.nil_append]
    rfl
  have scans := renders fates member stands.of_append_right dot fun dot_eq last found =>
    selectable dot_eq last (by
      change last ∈ (kept (fates' ++ fates)).getLast?
      rwa [Fate.kept_append, kept_eq, List.nil_append])
  exact same ▸ scans

/-- What follows does not show. -/
theorem upTo (renders : Renders source closed left text)
    (P : List Token → List Token → Prop) : Renders source closed (upTo left P) text := by
  have nothing : Silent {fates | ∃ behind, fates = [Fate.absent behind]} := by
    rintro _ ⟨behind, rfl⟩
    rfl
  refine (renders.skip_right nothing).mono ?_
  rintro _ ⟨fates, member, behind, -, rfl⟩
  exact Language.append_mem_mul member ⟨behind, rfl⟩

/-- What stands behind an expression does not show. -/
theorem before_trail (renders : Renders source closed left text) (expr : Expr) :
    Renders source closed (left * expr.trail) text :=
  renders.skip_right (.trail expr)

theorem around (renders : Renders source closed left text) (expr : Expr) :
    Renders source closed (expr.around left) text :=
  (renders.skip_left (.lead expr)).before_trail expr

theorem operand (renders : Renders source closed left text) (expr : Expr) :
    Renders source closed (expr.operand left) text :=
  (renders.around expr).upTo _

theorem whole (renders : Renders source closed left text) (expr : Expr) :
    Renders source closed (expr.whole left) text :=
  (renders.around expr).upTo _

/-- What is lost behind an argument does not show. -/
theorem argument (renders : Renders source closed left text) (expr : Expr) :
    Renders source closed (expr.argument left) text := by
  refine ((renders.whole expr).skip_right (.loses stray fun _ _ => True)).mono ?_
  rintro _ ⟨read, read_mem, _, ⟨run, run_mem, behind, -, rfl⟩, rfl⟩
  exact Language.append_mem_mul read_mem ⟨run, run_mem, behind, trivial, rfl⟩

/-- Parentheses are put around a text. -/
theorem group (renders : Renders source closed left text) :
    Renders source true left ("(" ++ text ++ ")") := by
  intro fates member stands dot selectable
  have scans := (renders.open_ fates member stands false nofun).group
    fun rest => .inr (Token.Ends.before (by decide) rest)
  refine (scans.mono fun _ _ => trivial).widen ?_
  rintro _ ⟨_, ⟨opening, ⟨opening_eq, -⟩, inner, inner_eq, rfl⟩, closing, ⟨closing_eq, -⟩, rfl⟩
  obtain ⟨first, rfl, first_eq⟩ := List.map_eq_singleton_iff.mp opening_eq
  obtain ⟨last, rfl, last_eq⟩ := List.map_eq_singleton_iff.mp closing_eq
  have inner_eq : unparen (inner.map (·.text)) = unparen (texts fates) := inner_eq
  change unparen (([first] ++ inner ++ [last]).map (·.text)) = _
  have first_eq : first.text = "(" := congrArg Prod.snd first_eq
  have last_eq : last.text = ")" := congrArg Prod.snd last_eq
  rw [List.map_append, List.map_append, unparen_append, unparen_append, inner_eq,
    List.map_singleton, List.map_singleton, first_eq, last_eq]
  exact List.append_nil _

end Renders

/-- Tokens of the kinds of punctuation marks have the characters of these. -/
theorem Token.texts_eq_of_isSpelled {found : List Token} {lexemes : List Lexeme}
    (marks : ∀ lexeme ∈ lexemes, (lexeme.2.toList, lexeme.1) ∈ punctuation)
    (known : ∀ token ∈ found, token.IsSpelled)
    (kinds_eq : found.map (·.kind) = lexemes.map (·.1)) :
    found.map (·.text) = lexemes.map (·.2) := by
  induction lexemes generalizing found with
  | nil =>
      obtain rfl := List.map_eq_nil_iff.mp kinds_eq
      rfl
  | cons lexeme lexemes induction =>
      obtain ⟨token, found, rfl, kind_eq, kinds_eq⟩ := List.map_eq_cons_iff.mp kinds_eq
      obtain ⟨mark, marks⟩ := List.forall_mem_cons.mp marks
      obtain ⟨first, known⟩ := List.forall_mem_cons.mp known
      rw [List.map_cons, List.map_cons, first _ mark kind_eq.symm, String.ofList_toList,
        induction marks known kinds_eq]

theorem Fate.Stands.texts_eq {source : Source} {fates : List Fate} (stands : Stands source fates)
    (lexemes : List Token.Lexeme)
    (marks : ∀ lexeme ∈ lexemes, (lexeme.2.toList, lexeme.1) ∈ Token.punctuation)
    (member : fates ∈ showsKinds (lexemes.map (·.1))) : texts fates = lexemes.map (·.2) := by
  obtain ⟨found, kinds_eq, rfl⟩ := member
  rw [Fate.texts_map_shown]
  refine Token.texts_eq_of_isSpelled marks (fun token member => ?_) kinds_eq
  exact Token.isSpelled_of_mem_scanFrom (stands.mem_scan (by rwa [Fate.tokens_map_shown]))

namespace Renders

variable {source : Source} {closed : Bool} {language : Language Fate} {text shown : String}
  {kind : TokenKind} {lexemes : List Token.Lexeme}

/-- Punctuation marks, with blanks around them or without. -/
theorem marks (known : ∀ lexeme ∈ lexemes, (lexeme.2.toList, lexeme.1) ∈ Token.punctuation)
    (scans : Scans text (fun _ => True) (spelled lexemes)) :
    Renders source true (showsKinds (lexemes.map (·.1))) text := by
  intro fates member stands dot selectable
  refine (scans.mono fun _ _ => trivial).widen (spelled_le_renderedAs ?_)
  rw [stands.texts_eq lexemes known member]

/-- Punctuation marks in front of something that ends tokens. -/
theorem open_marks (known : ∀ lexeme ∈ lexemes, (lexeme.2.toList, lexeme.1) ∈ Token.punctuation)
    (scans : Scans text (Ends true) (spelled lexemes)) :
    Renders source false (showsKinds (lexemes.map (·.1))) text := by
  intro fates member stands dot selectable
  refine (scans.mono fun _ ends => ?_).widen (spelled_le_renderedAs ?_)
  · exact (ends.resolve_left Bool.false_ne_true).withDot
  · rw [stands.texts_eq lexemes known member]

/-- A text that stands for no token. -/
theorem supplied (scans : Scans text (fun _ => True) (spelled [(kind, shown)])) :
    Renders source true (supplies kind shown) text := by
  rintro _ ⟨behind, rfl, -⟩ stands dot selectable
  exact (scans.mono fun _ _ => trivial).widen (spelled_le_renderedAs rfl)

/-- A word with blanks around it. -/
theorem keyword (scans : Scans text (fun _ => True) (spelled [(kind, shown)])) :
    Renders source true (shows kind shown) text := by
  rintro fates ⟨span, rfl⟩ stands dot selectable
  exact (scans.mono fun _ _ => trivial).widen (spelled_le_renderedAs rfl)

/-- A token of the source. -/
theorem token (kind : TokenKind) (text : String) :
    Renders source false (shows kind text) text := by
  rintro fates ⟨span, rfl⟩ ⟨-, front, later, scan_eq, goes_on⟩ dot selectable
  have scanned : Token.scan 0 source.chars = front ++ ⟨kind, text, span⟩ :: later := by
    simpa [Fate.tokens, Fate.token?] using scan_eq
  have scans := Token.scans_text scanned goes_on fun dot_eq => selectable dot_eq _ rfl _ rfl
  refine (scans.mono fun rest ends => ends.resolve_left Bool.false_ne_true).widen ?_
  intro found found_eq
  have texts_eq : found.map (·.text) = [text] := by
    have lexemes_eq : found.map lexeme = [(kind, text)] := found_eq
    simpa [List.map_map, Function.comp_def, lexeme] using congrArg (List.map Prod.snd) lexemes_eq
  change unparen (found.map (·.text)) = _
  rw [texts_eq]
  rfl

/-- A stretch of the source. -/
theorem copied {span : Span} (sliced : source.slice? span = some text) :
    Renders source false (copies span) text := by
  rintro _ ⟨found, first, last, first_eq, last_eq, span_eq, rfl⟩
    ⟨spaced, front, later, scan_eq, goes_on⟩ dot selectable
  rw [Fate.tokens_map_shown] at scan_eq
  rw [Fate.Spaced, Fate.kept_map_shown, List.isChain_map] at spaced
  have apart : found.IsChain Token.Apart := spaced.imp fun token following apart =>
    apart token rfl following rfl
  obtain ⟨text', sliced', scans⟩ := Token.exists_copy scan_eq first_eq last_eq goes_on apart
  rw [← span_eq, sliced] at sliced'
  obtain rfl := Option.some.inj sliced'
  have scans := scans dot fun dot_eq => selectable dot_eq (.shown last)
    (by rw [Fate.kept_map_shown, List.getLast?_map, last_eq]; rfl) last rfl
  refine (scans.mono fun rest ends => ends.resolve_left Bool.false_ne_true).widen ?_
  intro others lexemes_eq
  have lexemes_eq : others.map lexeme = found.map lexeme := lexemes_eq
  change unparen (others.map (·.text)) = _
  have texts_eq := congrArg (List.map Prod.snd) lexemes_eq
  rw [List.map_map, List.map_map] at texts_eq
  rw [Fate.texts_map_shown]
  exact congrArg unparen texts_eq

end Renders

end JavaOutline
