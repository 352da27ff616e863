import Interpose.Proofs.Language
import Interpose.Proofs.TokenTexts

/-!
Trees that can be written down, and the texts that write them: the tokens of the tree in order, with
blanks or comments between any two of them. Main statement: each such text is parsed to the tree that
it was written from, and only trees that can be written are ever parsed (`parse_undoes_writing`).
-/

set_option autoImplicit false

namespace Interpose.Script

section Trees

def keywords : List String := ["import", "from", "let", "export", "true", "false", "null"]

def IsWord (text : List Char) : Prop :=
  ∃ first rest, text = first :: rest ∧ isWordStart first = true ∧ ∀ c ∈ rest, isWordPart c = true

structure IsIdentifier (name : String) : Prop where
  word : IsWord name.toList
  free : name ∉ keywords

def Expr.IsChain : Expr → Prop
  | .literal .. => False
  | .identifier name => IsIdentifier name.name
  | .member object property _ => object.IsChain ∧ IsIdentifier property.name

/-- A literal, or a chain of names. -/
def Expr.Writable : Expr → Prop
  | .literal .. => True
  | value => value.IsChain

def Stmt.Writable : Stmt → Prop
  | .imports name _ _ => IsIdentifier name.name
  | .binds name value _ | .exports name value _ => IsIdentifier name.name ∧ value.Writable

def Program.Writable (program : Program) : Prop := ∀ stmt ∈ program.statements, stmt.Writable

def Expr.kinds : Expr → List TokenKind
  | .literal value _ => [.ofLiteral value]
  | .identifier name => [.identifier name.name]
  | .member object property _ => object.kinds ++ [.dot, .identifier property.name]

def Stmt.kinds : Stmt → List TokenKind
  | .imports name source _ =>
    [.importWord, .identifier name.name, .fromWord, .string source.value, .semicolon]
  | .binds name value _ => .letWord :: .identifier name.name :: .equal :: (value.kinds ++ [.semicolon])
  | .exports name value _ =>
    .exportWord :: .identifier name.name :: .equal :: (value.kinds ++ [.semicolon])

def Program.kinds (program : Program) : List TokenKind := program.statements.flatMap Stmt.kinds

end Trees

section Texts

/-- A decimal number, perhaps behind a minus sign; zeros may lead. -/
def Decimal (n : Int64) (text : List Char) : Prop :=
  ∃ digits, digits ≠ [] ∧ (∀ c ∈ digits, Text.isDigit c = true) ∧
    (text = digits ∧ n.toInt = Text.natOfDigits digits ∨
      text = '-' :: digits ∧ n.toInt = -Text.natOfDigits digits)

/-- Strings are quoted, integers are decimal, and other tokens have one text only. -/
def TokenKind.Spelling (kind : TokenKind) (text : List Char) : Prop :=
  match kind with
  | .string value => text = (quote value).toList
  | .integer n => Decimal n text
  | kind => text = kind.text.toList

/-- Blanks and comment lines. -/
inductive Trivia : List Char → Prop where
  | nothing : Trivia []
  | blank {c : Char} {rest : List Char} (hblank : Text.isBlank c = true) (hrest : Trivia rest) :
      Trivia (c :: rest)
  | comment {line rest : List Char} (hline : '\n' ∉ line) (hrest : Trivia rest) :
      Trivia ('/' :: '/' :: (line ++ '\n' :: rest))

/-- What may stand behind the last token: no line feed ends a comment that the text ends in. -/
def LastTrivia (text : List Char) : Prop :=
  Trivia text ∨ ∃ front line, Trivia front ∧ '\n' ∉ line ∧ text = front ++ '/' :: '/' :: line

/-- The text has the tokens of the program in it, each spelled out, with blanks or comments between
any two. -/
def Program.Written (program : Program) (text : String) : Prop :=
  ∃ lexemes last, lexemes.map Lexeme.kind = program.kinds ∧
    (∀ lexeme ∈ lexemes, Trivia lexeme.gap ∧ lexeme.kind.Spelling lexeme.text) ∧
    (∀ lexeme ∈ lexemes.tail, lexeme.gap ≠ []) ∧ LastTrivia last ∧ text.toList = spell lexemes last

end Texts

section Read

variable {tokens : List Token}

theorem Expr.Continues.snoc {head value : Expr} {dot token : Token} {name : String}
    (h : head.Continues tokens value) (hdot : dot.kind = .dot) (hname : token.kind = .identifier name) :
    head.Continues (tokens ++ [dot, token])
      (.member value ⟨name, token.span⟩ ⟨value.span.start, token.stop⟩) := by
  induction h with
  | stop => exact .property hdot hname .stop
  | property hdot' hname' _ ih => exact .property hdot' hname' ih

theorem exists_chain_alike {value : Expr} (hvalue : value.IsChain) (htokens : kinds tokens = value.kinds) :
    ∃ value', Expr.ReadFrom tokens value' ∧ Expr.Like id value value' := by
  induction value generalizing tokens with
  | literal => exact absurd hvalue id
  | identifier name =>
    obtain ⟨token, rfl, hname⟩ := List.map_eq_singleton_iff.mp htokens
    exact ⟨_, .chain hname .stop, .identifier⟩
  | member object property span ih =>
    obtain ⟨front, back, rfl, hfront, hback⟩ := List.map_eq_append_iff.mp htokens
    obtain ⟨object', hobject, hlike⟩ := ih hvalue.1 hfront
    obtain ⟨dot, _, rfl, hdot, hback⟩ := List.map_eq_cons_iff.mp hback
    obtain ⟨token, rfl, hname⟩ := List.map_eq_singleton_iff.mp hback
    cases hobject with
    | literal =>
      cases hlike
      exact absurd hvalue.1 id
    | chain hfirst hbehind => exact ⟨_, .chain hfirst (hbehind.snoc hdot hname), .member hlike⟩

theorem exists_expr_alike {value : Expr} (hvalue : value.Writable) (htokens : kinds tokens = value.kinds) :
    ∃ value', Expr.ReadFrom tokens value' ∧ Expr.Like id value value' := by
  cases value with
  | literal value span =>
    obtain ⟨token, rfl, hkind⟩ := List.map_eq_singleton_iff.mp htokens
    have hliteral : token.kind.literal? = some value := by
      rw [hkind]
      exact literal?_ofLiteral value
    exact ⟨_, .literal hliteral, .literal⟩
  | identifier name => exact exists_chain_alike hvalue htokens
  | member object property span => exact exists_chain_alike hvalue htokens

theorem exists_binding_alike {make : Ident → Expr → Span → Stmt} {word : TokenKind}
    (hword : BindingWord word make) {name : String} {value : Expr} (hvalue : value.Writable)
    (htokens : kinds tokens = word :: .identifier name :: .equal :: (value.kinds ++ [.semicolon])) :
    ∃ span value' all, Stmt.ReadFrom tokens (make ⟨name, span⟩ value' all) ∧
      Expr.Like id value value' := by
  obtain ⟨first, _, rfl, hfirst, htokens⟩ := List.map_eq_cons_iff.mp htokens
  obtain ⟨token, _, rfl, hname, htokens⟩ := List.map_eq_cons_iff.mp htokens
  obtain ⟨between, _, rfl, hbetween, htokens⟩ := List.map_eq_cons_iff.mp htokens
  obtain ⟨part, _, rfl, hpart, htokens⟩ := List.map_eq_append_iff.mp htokens
  obtain ⟨last, rfl, hlast⟩ := List.map_eq_singleton_iff.mp htokens
  obtain ⟨value', hread, hlike⟩ := exists_expr_alike hvalue hpart
  subst hfirst
  exact ⟨_, value', _, .binding hword hname hbetween hread hlast, hlike⟩

theorem exists_stmt_alike {stmt : Stmt} (hstmt : stmt.Writable) (htokens : kinds tokens = stmt.kinds) :
    ∃ stmt', Stmt.ReadFrom tokens stmt' ∧ Stmt.Like id stmt stmt' := by
  cases stmt with
  | imports name source span =>
    obtain ⟨first, _, rfl, hfirst, htokens⟩ := List.map_eq_cons_iff.mp htokens
    obtain ⟨token, _, rfl, hname, htokens⟩ := List.map_eq_cons_iff.mp htokens
    obtain ⟨between, _, rfl, hbetween, htokens⟩ := List.map_eq_cons_iff.mp htokens
    obtain ⟨string, _, rfl, hsource, htokens⟩ := List.map_eq_cons_iff.mp htokens
    obtain ⟨last, rfl, hlast⟩ := List.map_eq_singleton_iff.mp htokens
    exact ⟨_, .imports hfirst hname hbetween hsource hlast, .imports rfl⟩
  | binds name value span =>
    obtain ⟨_, value', _, hread, hlike⟩ := exists_binding_alike .binds hstmt.2 htokens
    exact ⟨_, hread, .binds hlike⟩
  | exports name value span =>
    obtain ⟨_, value', _, hread, hlike⟩ := exists_binding_alike .exports hstmt.2 htokens
    exact ⟨_, hread, .exports hlike⟩

theorem exists_statements_alike {stmts : List Stmt} (hstmts : ∀ stmt ∈ stmts, stmt.Writable)
    (htokens : kinds tokens = stmts.flatMap Stmt.kinds) :
    ∃ stmts', StatementsFrom tokens stmts' ∧ List.Forall₂ (Stmt.Like id) stmts stmts' := by
  induction stmts generalizing tokens with
  | nil =>
    obtain rfl := List.map_eq_nil_iff.mp htokens
    exact ⟨[], .done, .nil⟩
  | cons stmt stmts ih =>
    obtain ⟨hstmt, hrest⟩ := List.forall_mem_cons.mp hstmts
    obtain ⟨front, back, rfl, hfront, hback⟩ := List.map_eq_append_iff.mp htokens
    obtain ⟨stmt', hread, hlike⟩ := exists_stmt_alike hstmt hfront
    obtain ⟨stmts', hreads, hlikes⟩ := ih hrest hback
    exact ⟨stmt' :: stmts', .next hread hreads, .cons hlike hlikes⟩

end Read

def ProperNames (tokens : List Token) : Prop :=
  ∀ token ∈ tokens, ∀ name, token.kind = .identifier name → IsIdentifier name

section Proper

variable {tokens : List Token}

theorem Expr.Continues.isChain {head value : Expr} (h : head.Continues tokens value)
    (htokens : ProperNames tokens) (hhead : head.IsChain) : value.IsChain := by
  induction h with
  | stop => exact hhead
  | @property head value dot token behind name hdot hname _ ih =>
    have hproper : IsIdentifier name := htokens token (by simp) name hname
    exact ih (fun token htoken => htokens token (by simp [htoken])) ⟨hhead, hproper⟩

theorem Expr.IsChain.writable {value : Expr} (h : value.IsChain) : value.Writable := by
  cases value with
  | literal => trivial
  | identifier => exact h
  | member => exact h

theorem Expr.ReadFrom.writable {value : Expr} (h : Expr.ReadFrom tokens value)
    (htokens : ProperNames tokens) : value.Writable := by
  cases h with
  | literal hvalue => trivial
  | @chain token behind name value hname hbehind =>
    have hproper : IsIdentifier name := htokens token (by simp) name hname
    exact (hbehind.isChain (fun token htoken => htokens token (by simp [htoken])) hproper).writable

theorem Stmt.ReadFrom.writable {stmt : Stmt} (h : Stmt.ReadFrom tokens stmt)
    (htokens : ProperNames tokens) : stmt.Writable := by
  cases h with
  | @imports first name between source last text value hfirst hname hbetween hsource hlast =>
    exact htokens name (by simp) text hname
  | @binding first name between last make text part value hfirst hname hbetween hvalue hlast =>
    have hproper : IsIdentifier text := htokens name (by simp) text hname
    have hwritable : value.Writable :=
      hvalue.writable fun token htoken => htokens token (by simp [htoken])
    generalize first.kind = word at hfirst
    cases hfirst
    · exact ⟨hproper, hwritable⟩
    · exact ⟨hproper, hwritable⟩

theorem StatementsFrom.writable {stmts : List Stmt} (h : StatementsFrom tokens stmts)
    (htokens : ProperNames tokens) : ∀ stmt ∈ stmts, stmt.Writable := by
  induction h with
  | done => simp
  | next first then_ ih =>
    refine List.forall_mem_cons.mpr ⟨first.writable ?_, ih ?_⟩
    · exact fun token htoken => htokens token (List.mem_append_left _ htoken)
    · exact fun token htoken => htokens token (List.mem_append_right _ htoken)

end Proper

section Words

theorem ofWord_eq_identifier {word name : String} :
    TokenKind.ofWord word = .identifier name ↔ word ∉ keywords ∧ word = name := by
  unfold TokenKind.ofWord keywords
  constructor
  · intro h
    repeat' split at h
    all_goals try cases h
    simp [*]
  · rintro ⟨hfree, rfl⟩
    simp only [List.mem_cons, List.not_mem_nil, or_false, not_or] at hfree
    simp only [hfree, if_false]

theorem Reads.isIdentifier {name : String} {text rest : List Char}
    (h : Reads (.identifier name) text rest) : IsIdentifier name := by
  generalize hkind : TokenKind.identifier name = kind at h
  cases h with
  | equal | dot | semicolon | string => cases hkind
  | integer hfirst hdigits hstop hinteger =>
    obtain ⟨n, rfl⟩ := eq_integer_of_integerKind hinteger
    cases hkind
  | @word first word rest hfirst hword hstop =>
    obtain ⟨hfree, rfl⟩ := ofWord_eq_identifier.mp hkind.symm
    exact ⟨⟨first, word, String.toList_ofList, hfirst, hword⟩, hfree⟩

theorem Fit.properNames {lexemes : List Lexeme} {last : List Char} (h : Fit lexemes last)
    (p : Position) : ProperNames (tokensOf p lexemes) := by
  induction h generalizing p with
  | done => simp [ProperNames, tokensOf]
  | token gap spells behind ih =>
    refine List.forall_mem_cons.mpr ⟨?_, ih _⟩
    intro name hname
    dsimp only at hname
    rw [hname] at spells
    exact (reads_of_spells spells).isIdentifier

end Words

section Characters

def marks : List Char := ['=', '.', ';', '"', '-', '_', '/']

theorem blankRanges_ascending : Text.blankRanges.Ascending := by
  simp [Text.blankRanges, Text.Ranges.Ascending]

theorem blankRanges_apart : ∀ range ∈ Text.blankRanges,
    ∀ n ∈ List.range' range.1 (range.2 + 1 - range.1),
      Text.alphabeticRanges.has n = false ∧ Text.numericRanges.has n = false ∧
        n ∉ marks.map Char.toNat := by
  decide +kernel

theorem not_token_of_isBlank {c : Char} (h : Text.isBlank c = true) :
    isWordPart c = false ∧ Text.isNumeric c = false ∧ c ∉ marks := by
  obtain ⟨range, hrange, hlow, hhigh⟩ := (Text.Ranges.has_iff blankRanges_ascending _).mp h
  have hmem : c.toNat ∈ List.range' range.1 (range.2 + 1 - range.1) := by
    rw [List.mem_range'_1]
    omega
  obtain ⟨halphabetic, hnumeric, hmarks⟩ := blankRanges_apart range hrange c.toNat hmem
  have hnot : c ∉ marks := fun hc => hmarks (List.mem_map_of_mem hc)
  have hunderscore : c ≠ '_' := by
    rintro rfl
    exact hnot (by decide)
  refine ⟨?_, hnumeric, hnot⟩
  simp [isWordPart, Text.isAlphabetic, Text.isNumeric, halphabetic, hnumeric, hunderscore]

theorem isBlank_eq_false {c : Char} (h : isWordPart c = true ∨ Text.isNumeric c = true ∨ c ∈ marks) :
    Text.isBlank c = false := by
  by_contra hblank
  obtain ⟨hpart, hnumeric, hmark⟩ := not_token_of_isBlank (Bool.not_eq_false _ ▸ hblank)
  simp [hpart, hnumeric, hmark] at h

end Characters

section Gaps

variable {gap last line rest : List Char}

/-- Nothing, a blank or a comment is next. -/
def Separates (rest : List Char) : Prop := ∀ c ∈ rest.head?, Text.isBlank c = true ∨ c = '/'

theorem Separates.stopsAt (h : Separates rest) : StopsAt isWordPart rest ∧ StopsAt Text.isDigit rest := by
  have hpart : StopsAt isWordPart rest := by
    intro c hc
    rcases h c hc with hblank | rfl
    · exact (not_token_of_isBlank hblank).1
    · decide +kernel
  exact ⟨hpart, hpart.digits⟩

theorem Trivia.separates (h : Trivia gap) (hgap : gap ≠ []) : Separates (gap ++ rest) := by
  cases h with
  | nothing => exact absurd rfl hgap
  | blank hblank hrest =>
    rintro c ⟨⟩
    exact .inl hblank
  | comment hline hrest =>
    rintro c ⟨⟩
    exact .inr rfl

theorem LastTrivia.separates (h : LastTrivia last) : Separates last := by
  by_cases hlast : last = []
  · simp [Separates, hlast]
  · rcases h with htrivia | ⟨front, line, htrivia, hline, rfl⟩
    · have hseparates : Separates (last ++ []) := htrivia.separates hlast
      rwa [List.append_nil] at hseparates
    · by_cases hfront : front = []
      · subst hfront
        rintro c ⟨⟩
        exact .inr rfl
      · exact htrivia.separates hfront

theorem skipTrivia_line (hline : '\n' ∉ line) (p : Position) :
    skipTrivia true (line ++ rest) p = skipTrivia true rest (p.advance line) := by
  induction line generalizing p with
  | nil => rfl
  | cons c line ih =>
    rw [List.mem_cons, not_or] at hline
    have hc : (c != '\n') = true := bne_iff_ne.mpr (Ne.symm hline.1)
    rw [List.cons_append, skipTrivia, if_pos rfl, hc, ih hline.2]
    rfl

theorem skipTrivia_slashes (p : Position) :
    skipTrivia false ('/' :: '/' :: rest) p = skipTrivia true rest (p.advance ['/', '/']) := by
  have hslash : Text.isBlank '/' = false := by decide
  simp [skipTrivia, hslash]

theorem Trivia.skip (h : Trivia gap) (p : Position) :
    skipTrivia false (gap ++ rest) p = skipTrivia false rest (p.advance gap) := by
  induction h generalizing p with
  | nothing => rfl
  | blank hblank _ ih =>
    rw [List.cons_append, skipTrivia, if_neg Bool.false_ne_true, if_pos hblank, ih]
    rfl
  | @comment line behind hline _ ih =>
    have hall : '/' :: '/' :: (line ++ '\n' :: behind) ++ rest =
        '/' :: '/' :: (line ++ '\n' :: (behind ++ rest)) := by simp
    rw [hall, skipTrivia_slashes, skipTrivia_line hline, skipTrivia, if_pos rfl, bne_self_eq_false, ih]
    simp [Position.advance_append]

theorem Trivia.isGap (h : Trivia gap) {c : Char} (hblank : Text.isBlank c = false) (hslash : c ≠ '/') :
    IsGap gap (c :: rest) := by
  intro p
  rw [h.skip]
  simp [skipTrivia, hblank, hslash]

theorem LastTrivia.isGap (h : LastTrivia last) : IsGap last [] := by
  intro p
  rcases h with htrivia | ⟨front, line, htrivia, hline, rfl⟩
  · rw [htrivia.skip]
    rfl
  · have hline' : skipTrivia true (line ++ []) ((p.advance front).advance ['/', '/']) =
        ⟨[], ((p.advance front).advance ['/', '/']).advance line⟩ := skipTrivia_line hline _
    rw [List.append_assoc, htrivia.skip, List.cons_append, List.cons_append, skipTrivia_slashes, hline',
      Position.advance_append]
    rfl

end Gaps

section Spellings

variable {text rest : List Char}

/-- The tokens of trees that can be written. -/
def TokenKind.Writable : TokenKind → Prop
  | .identifier name => IsIdentifier name
  | .endOfInput => False
  | _ => True

theorem reads_word {word : String} (hword : IsWord word.toList) (hrest : Separates rest) :
    Reads (.ofWord word) word.toList rest := by
  obtain ⟨first, behind, htext, hfirst, hbehind⟩ := hword
  have hreads : Reads (.ofWord (.ofList (first :: behind))) (first :: behind) rest :=
    .word hfirst hbehind hrest.stopsAt.1
  rwa [← htext, String.ofList_toList] at hreads

theorem isWord_of_mem_keywords {word : String} (h : word ∈ keywords) : IsWord word.toList := by
  simp only [keywords, List.mem_cons, List.not_mem_nil, or_false] at h
  rcases h with rfl | rfl | rfl | rfl | rfl | rfl | rfl
  all_goals exact ⟨_, _, rfl, by decide, List.all_eq_true.mp (by decide)⟩

theorem reads_keyword {word : String} {kind : TokenKind} (hword : word ∈ keywords)
    (hkind : TokenKind.ofWord word = kind) (hrest : Separates rest) : Reads kind word.toList rest :=
  hkind ▸ reads_word (isWord_of_mem_keywords hword) hrest

theorem int64?_toInt (n : Int64) : Text.int64? n.toInt = some n := by
  rw [Text.int64?, if_pos ⟨n.minValue_le_toInt, n.toInt_le⟩, Int64.ofInt_toInt]

theorem reads_decimal {n : Int64} (h : Decimal n text) (hrest : Separates rest) :
    Reads (.integer n) text rest := by
  obtain ⟨digits, hsome, hdigits, ⟨rfl, hvalue⟩ | ⟨rfl, hvalue⟩⟩ := h
  · obtain ⟨first, behind, rfl⟩ := List.exists_cons_of_ne_nil hsome
    obtain ⟨hfirst, hbehind⟩ := List.forall_mem_cons.mp hdigits
    refine .integer (.inl hfirst) hbehind hrest.stopsAt.2 ?_
    have hminus : first ≠ '-' := by
      rintro rfl
      revert hfirst
      decide
    simp only [integerKind, if_neg hminus, ← hvalue, int64?_toInt]
  · refine .integer (.inr ⟨rfl, hsome⟩) hdigits hrest.stopsAt.2 ?_
    simp only [integerKind, if_true, ← hvalue, int64?_toInt]

theorem reads_spelling {kind : TokenKind} (hkind : kind.Writable) (htext : kind.Spelling text)
    (hrest : Separates rest) : Reads kind text rest := by
  cases kind with
  | string value =>
    obtain rfl := htext
    exact reads_quote value rest
  | integer n => exact reads_decimal htext hrest
  | identifier name =>
    obtain rfl := htext
    have hreads : Reads (.ofWord name) name.toList rest := reads_word hkind.word hrest
    rwa [ofWord_eq_identifier.mpr ⟨hkind.free, rfl⟩] at hreads
  | boolean value =>
    obtain rfl := htext
    cases value with
    | true => exact reads_keyword (by decide) rfl hrest
    | false => exact reads_keyword (by decide) rfl hrest
  | null | importWord | fromWord | letWord | exportWord =>
    obtain rfl := htext
    exact reads_keyword (by decide) rfl hrest
  | equal =>
    obtain rfl := htext
    exact .equal
  | dot =>
    obtain rfl := htext
    exact .dot
  | semicolon =>
    obtain rfl := htext
    exact .semicolon
  | endOfInput => exact absurd hkind id

theorem Reads.isBlank_head {kind : TokenKind} (h : Reads kind text rest) :
    ∃ c behind, text = c :: behind ∧ Text.isBlank c = false ∧ c ≠ '/' := by
  have hslash := h.head_ne_slash
  have hhead : ∃ c behind, text = c :: behind ∧ Text.isBlank c = false := by
    cases h with
    | equal | dot | semicolon | string => exact ⟨_, _, rfl, isBlank_eq_false (.inr (.inr (by decide)))⟩
    | integer hfirst hdigits hstop hkind =>
      refine ⟨_, _, rfl, isBlank_eq_false (.inr ?_)⟩
      rcases hfirst with hdigit | ⟨rfl, _⟩
      · exact .inl (isNumeric_of_isDigit hdigit)
      · exact .inr (by decide)
    | word hfirst hword hstop =>
      refine ⟨_, _, rfl, isBlank_eq_false (.inl ?_)⟩
      rw [isWordStart, Bool.or_eq_true] at hfirst
      rcases hfirst with halphabetic | hunderscore
      · simp [isWordPart, halphabetic]
      · simp [isWordPart, hunderscore]
  obtain ⟨c, behind, rfl, hblank⟩ := hhead
  exact ⟨c, behind, rfl, hblank, fun hc => hslash (by rw [hc]; rfl)⟩

end Spellings

section Written

variable {lexemes : List Lexeme} {last : List Char}

/-- What is behind a token of a written text does not go on with it. -/
theorem separates_spell (htrivia : ∀ lexeme ∈ lexemes, Trivia lexeme.gap)
    (hgaps : ∀ lexeme ∈ lexemes, lexeme.gap ≠ []) (hlast : LastTrivia last) :
    Separates (spell lexemes last) := by
  cases lexemes with
  | nil => exact hlast.separates
  | cons lexeme lexemes =>
    exact (htrivia lexeme List.mem_cons_self).separates (hgaps lexeme List.mem_cons_self)

theorem fit_of_spelling (hkinds : ∀ lexeme ∈ lexemes, lexeme.kind.Writable)
    (htexts : ∀ lexeme ∈ lexemes, Trivia lexeme.gap ∧ lexeme.kind.Spelling lexeme.text)
    (hgaps : ∀ lexeme ∈ lexemes.tail, lexeme.gap ≠ []) (hlast : LastTrivia last) :
    Fit lexemes last := by
  induction lexemes with
  | nil => exact .done hlast.isGap
  | cons lexeme lexemes ih =>
    obtain ⟨hkind, hkinds⟩ := List.forall_mem_cons.mp hkinds
    obtain ⟨⟨htrivia, htext⟩, htexts⟩ := List.forall_mem_cons.mp htexts
    have hseparates : Separates (spell lexemes last) :=
      separates_spell (fun lexeme h => (htexts lexeme h).1) hgaps hlast
    have hreads := reads_spelling hkind htext hseparates
    obtain ⟨c, behind, hc, hblank, hslash⟩ := hreads.isBlank_head
    have hgap : IsGap lexeme.gap (lexeme.text ++ spell lexemes last) := by
      rw [hc]
      exact htrivia.isGap hblank hslash
    exact .token hgap hreads.spells
      (ih hkinds htexts fun lexeme h => hgaps lexeme (List.mem_of_mem_tail h))

theorem kinds_tokensOf (p : Position) : kinds (tokensOf p lexemes) = lexemes.map Lexeme.kind := by
  induction lexemes generalizing p with
  | nil => rfl
  | cons lexeme lexemes ih => exact congrArg (lexeme.kind :: ·) (ih _)

end Written

section Kinds

theorem TokenKind.writable_ofLiteral (value : Literal) : (TokenKind.ofLiteral value).Writable := by
  cases value <;> trivial

theorem Expr.IsChain.writable_kinds {value : Expr} (h : value.IsChain) :
    ∀ kind ∈ value.kinds, kind.Writable := by
  induction value with
  | literal => exact absurd h id
  | identifier name =>
    intro kind hkind
    obtain rfl := List.mem_singleton.mp hkind
    exact h
  | member object property span ih =>
    have hobject := ih h.1
    have hproperty : (TokenKind.identifier property.name).Writable := h.2
    intro kind hkind
    simp only [Expr.kinds, List.mem_append, List.mem_cons, List.not_mem_nil, or_false] at hkind
    rcases hkind with hkind | rfl | rfl
    · exact hobject kind hkind
    · trivial
    · exact hproperty

theorem Expr.Writable.kinds {value : Expr} (h : value.Writable) : ∀ kind ∈ value.kinds, kind.Writable := by
  cases value with
  | literal value span =>
    intro kind hkind
    obtain rfl := List.mem_singleton.mp hkind
    exact TokenKind.writable_ofLiteral value
  | identifier => exact Expr.IsChain.writable_kinds h
  | member => exact Expr.IsChain.writable_kinds h

theorem writable_kinds_binding {word : TokenKind} {name : String} {value : Expr}
    (hword : word.Writable) (hname : IsIdentifier name) (hvalue : value.Writable) :
    ∀ kind ∈ word :: .identifier name :: .equal :: (value.kinds ++ [.semicolon]), kind.Writable := by
  have hidentifier : (TokenKind.identifier name).Writable := hname
  intro kind hkind
  simp only [List.mem_cons, List.mem_append, List.not_mem_nil, or_false] at hkind
  rcases hkind with rfl | rfl | rfl | hkind | rfl
  · exact hword
  · exact hidentifier
  · trivial
  · exact hvalue.kinds kind hkind
  · trivial

theorem Stmt.Writable.kinds {stmt : Stmt} (h : stmt.Writable) : ∀ kind ∈ stmt.kinds, kind.Writable := by
  cases stmt with
  | imports name source span =>
    have hidentifier : (TokenKind.identifier name.name).Writable := h
    intro kind hkind
    simp only [Stmt.kinds, List.mem_cons, List.not_mem_nil, or_false] at hkind
    rcases hkind with rfl | rfl | rfl | rfl | rfl
    · trivial
    · exact hidentifier
    · trivial
    · trivial
    · trivial
  | binds name value span => exact writable_kinds_binding trivial h.1 h.2
  | exports name value span => exact writable_kinds_binding trivial h.1 h.2

theorem Program.Writable.kinds {program : Program} (h : program.Writable) :
    ∀ kind ∈ program.kinds, kind.Writable := by
  intro kind hkind
  obtain ⟨stmt, hstmt, hkind⟩ := List.mem_flatMap.mp hkind
  exact (h stmt hstmt).kinds kind hkind

end Kinds

section Numbers

theorem isDigit_of_mem_toDigits {n : Nat} : ∀ c ∈ Nat.toDigits 10 n, Text.isDigit c = true := by
  intro c hc
  simpa [Text.isDigit, Char.isDigit, Char.le_def] using
    Nat.isDigit_of_mem_toDigits (by decide) (by decide) hc

theorem natOfDigits_toDigits (n : Nat) : Text.natOfDigits (Nat.toDigits 10 n) = n :=
  Nat.ofDigitChars_toDigits (by decide) (by decide)

/-- An integer is shown as a decimal number, the least one too. -/
theorem decimal_showInt64 (n : Int64) : Decimal n (Text.showInt64 n).toList := by
  rw [Text.showInt64, Int.toString_eq_repr, Int.repr_eq_if]
  split
  next hsign =>
    rw [Nat.toList_repr]
    refine ⟨_, Nat.toDigits_ne_nil, isDigit_of_mem_toDigits, .inl ⟨rfl, ?_⟩⟩
    rw [natOfDigits_toDigits]
    omega
  next hsign =>
    rw [String.toList_append, Nat.toList_repr]
    refine ⟨_, Nat.toDigits_ne_nil, isDigit_of_mem_toDigits, .inr ⟨rfl, ?_⟩⟩
    rw [natOfDigits_toDigits]
    omega

end Numbers

theorem exists_spelling (kind : TokenKind) : ∃ text, kind.Spelling text := by
  cases kind with
  | integer n => exact ⟨_, decimal_showInt64 n⟩
  | _ => exact ⟨_, rfl⟩

theorem Program.exists_written (program : Program) : ∃ text, program.Written text := by
  choose spelling hspelling using exists_spelling
  have hspace : Trivia [' '] := .blank (by decide) .nothing
  refine ⟨.ofList (spell (program.kinds.map fun kind => ⟨[' '], spelling kind, kind⟩) []), _, _,
    ?_, ?_, ?_, .inl .nothing, String.toList_ofList⟩
  · rw [List.map_map]
    exact List.map_id _
  · intro lexeme hlexeme
    obtain ⟨kind, _, rfl⟩ := List.mem_map.mp hlexeme
    exact ⟨hspace, hspelling kind⟩
  · intro lexeme hlexeme
    obtain ⟨kind, _, rfl⟩ := List.mem_map.mp (List.mem_of_mem_tail hlexeme)
    exact List.cons_ne_nil _ _

/-- Each text of a tree that can be written is parsed to that tree, but for the places; and each tree
that is parsed can be written. -/
theorem parse_undoes_writing :
    (∀ program : Program, program.Writable →
      (∃ text, program.Written text) ∧
      ∀ text, program.Written text → ∃ parsed, parseText text = .ok parsed ∧
        List.Forall₂ (Stmt.Like id) program.statements parsed.statements) ∧
    ∀ source parsed, parseText source = .ok parsed → parsed.Writable := by
  constructor
  · intro program hprogram
    refine ⟨program.exists_written, ?_⟩
    rintro text ⟨lexemes, last, hkinds, htexts, hgaps, hlast, htext⟩
    have hwritable : ∀ lexeme ∈ lexemes, lexeme.kind.Writable :=
      fun lexeme h => hprogram.kinds _ (hkinds ▸ List.mem_map_of_mem h)
    have hfit : Fit lexemes last := fit_of_spelling hwritable htexts hgaps hlast
    have htokens : kinds (tokensOf .start lexemes) = program.statements.flatMap Stmt.kinds := by
      rw [kinds_tokensOf, hkinds, Program.kinds]
    obtain ⟨stmts, hstmts, hlike⟩ := exists_statements_alike hprogram htokens
    exact ⟨⟨stmts, _⟩, parseText_iff.mpr ⟨lexemes, last, hfit, htext, hstmts, rfl⟩, hlike⟩
  · intro source parsed hparsed
    obtain ⟨lexemes, last, hfit, _, hstmts, _⟩ := parseText_iff.mp hparsed
    exact hstmts.writable (hfit.properNames .start)

def leastInteger : Program :=
  let span : Span := ⟨.start, .start⟩
  ⟨[.exports ⟨"low", span⟩ (.literal (.integer Int64.minValue) span) span], span⟩

theorem parse_undoes_writing_leastInteger : leastInteger.Writable ∧
    leastInteger.Written "export low// least\n= -9223372036854775808 ; // last" ∧
    (∃ parsed, parseText "export low// least\n= -9223372036854775808 ; // last" = .ok parsed ∧
      List.Forall₂ (Stmt.Like id) leastInteger.statements parsed.statements ∧ parsed.Writable) := by
  obtain ⟨hparses, hwritable⟩ := parse_undoes_writing
  have hlow : IsIdentifier "low" :=
    ⟨⟨'l', ['o', 'w'], rfl, by decide, List.all_eq_true.mp (by decide)⟩, by decide⟩
  have hprogram : leastInteger.Writable := List.forall_mem_cons.mpr ⟨⟨hlow, trivial⟩, by simp⟩
  have hspace : Trivia [' '] := .blank (by decide) .nothing
  have hcomment : Trivia ('/' :: '/' :: (" least".toList ++ '\n' :: [])) := .comment (by decide) .nothing
  have hinteger : Decimal Int64.minValue "-9223372036854775808".toList :=
    ⟨"9223372036854775808".toList, by decide, List.all_eq_true.mp (by decide), .inr ⟨rfl, by decide⟩⟩
  have hwritten : leastInteger.Written "export low// least\n= -9223372036854775808 ; // last" := by
    refine ⟨[⟨[], "export".toList, .exportWord⟩, ⟨[' '], "low".toList, .identifier "low"⟩,
      ⟨"// least\n".toList, ['='], .equal⟩,
      ⟨[' '], "-9223372036854775808".toList, .integer Int64.minValue⟩, ⟨[' '], [';'], .semicolon⟩],
      " // last".toList, rfl, ?_, by simp, .inr ⟨[' '], " last".toList, hspace, by decide, rfl⟩, rfl⟩
    simp only [List.forall_mem_cons]
    exact ⟨⟨.nothing, rfl⟩, ⟨hspace, rfl⟩, ⟨hcomment, rfl⟩, ⟨hspace, hinteger⟩, ⟨hspace, rfl⟩, by simp⟩
  obtain ⟨parsed, hparsed, hlike⟩ := (hparses leastInteger hprogram).2 _ hwritten
  exact ⟨hprogram, hwritten, parsed, hparsed, hlike, hwritable _ _ hparsed⟩

end Interpose.Script
