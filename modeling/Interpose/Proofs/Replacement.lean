import Interpose.Proofs.LiteralEdit

set_option autoImplicit false

namespace Interpose.Edit
open Script

section Texts

variable {text : String} {value target : Literal}

def IsTextOf (text : String) (value : Literal) : Prop :=
  ∃ stop, tokenize text = .ok [⟨.ofLiteral value, ⟨.start, stop⟩⟩, endMark stop]

theorem eq_nil_of_advance {p : Position} {cs : List Char} (h : p.advance cs = p) : cs = [] := by
  by_contra hcs
  have hlt := p.offset_lt_advance (List.length_pos_iff.mpr hcs)
  rw [h] at hlt
  exact Nat.lt_irrefl _ hlt

theorem IsTextOf.reads (h : IsTextOf text value) : Reads (.ofLiteral value) text.toList [] := by
  obtain ⟨stop, htokens⟩ := h
  obtain ⟨lexemes, last, hfit, hspell, hall⟩ := tokenize_iff.mp htokens
  rw [← List.singleton_append] at hall
  obtain ⟨hone, hend⟩ := List.append_inj' hall rfl
  obtain ⟨lexeme, rfl⟩ : ∃ lexeme, lexemes = [lexeme] := by
    rcases lexemes with _ | ⟨lexeme, _ | ⟨other, more⟩⟩
    · cases hone
    · exact ⟨lexeme, rfl⟩
    · simp [tokensOf] at hone
  obtain ⟨hkind, hspan⟩ := Token.mk.inj (List.cons.inj hone).1
  obtain ⟨hstart, hstop⟩ := Span.mk.inj hspan
  have hgap := eq_nil_of_advance hstart.symm
  have hlast : stop.advance last = stop := by
    have hwhole : stop = Position.start.advance text.toList :=
      congrArg (fun token : Token => token.span.start) (List.cons.inj hend).1
    rw [hspell, spell, spell, Position.advance_append, Position.advance_append, ← hstop] at hwhole
    exact hwhole.symm
  cases hfit with
  | token gap spells behind =>
    have hreads := reads_of_spells spells
    rw [hspell, hkind, spell, spell, hgap, eq_nil_of_advance hlast]
    rw [spell, eq_nil_of_advance hlast] at hreads
    simpa using hreads

/-- Writes a text of a literal for each literal that is the target. -/
def replacing (target : Literal) (text : String) (value : Literal) : LiteralEdit := fun old =>
  if old = target then some (text, value) else none

theorem replaceLiteral_eq (target : Literal) (text : String) (value : Literal) :
    replaceLiteral target text = transformerOf (editing (replacing target text value)) := by
  unfold replaceLiteral
  congr 1
  funext node
  unfold editing replacing
  rcases node.literal with _ | old
  · rfl
  · rw [Option.bind_some]
    by_cases hsame : old = target
    · rw [if_pos hsame, if_pos (congrArg some hsame)]
    · rw [if_neg hsame, if_neg fun h => hsame (Option.some.inj h)]

theorem spells_replacing (h : IsTextOf text value) : (replacing target text value).Spells := by
  intro old written result hwrite
  obtain ⟨_, hpair⟩ := Option.ite_none_right_eq_some.mp hwrite
  cases hpair
  exact h.reads

theorem change_replacing (target : Literal) (text : String) (value : Literal) :
    (replacing target text value).change = fun old => if old = target then value else old := by
  funext old
  unfold LiteralEdit.change replacing
  split <;> rfl

end Texts

section Alignment

variable {edit : LiteralEdit} {names names' : List String} {lexemes lexemes' : List Lexeme}
  {last last' : List Char} {kind before : TokenKind}

/-- There is one way only to read the first token of a text. -/
theorem first_of_spell (hfit : Fit lexemes last) {gap text rest : List Char}
    (hgap : IsGap gap (text ++ rest)) (hspells : Spells kind text rest)
    (hspell : spell lexemes last = gap ++ (text ++ rest)) :
    ∃ lexeme behind, lexemes = lexeme :: behind ∧ lexeme.kind = kind ∧ Fit behind last ∧
      spell behind last = rest := by
  have hscan := scan_token hgap hspells .start
  rw [← hspell] at hscan
  cases hfit with
  | done hlast =>
    have hnone := scan_done hlast .start
    rw [spell] at hscan
    rw [hnone] at hscan
    cases hscan
  | @token lexeme behind _ hgap' hspells' hbehind =>
    rw [spell, scan_token hgap' hspells'] at hscan
    obtain ⟨htoken, hcursor⟩ := Prod.mk.inj hscan
    have hkind := congrArg Token.kind (Option.some.inj (Except.ok.inj htoken))
    exact ⟨lexeme, behind, rfl, hkind, hbehind, congrArg Cursor.rest hcursor⟩

theorem ofWord_from (c : Char) (more : List Char) :
    ∃ name, TokenKind.ofWord (.ofList ("from".toList ++ c :: more)) = .identifier name := by
  refine ⟨_, ofWord_eq_identifier.mpr ⟨fun h => ?_, rfl⟩⟩
  have hlists := List.mem_map_of_mem (f := String.toList) h
  rw [String.toList_ofList] at hlists
  simp [keywords] at hlists

/-- Behind a name, `from` is not read together with what follows it: this would be a second name. -/
theorem stopsAt_from (hfit : Fit lexemes last) {name : String}
    (hrow : List.IsChain (Beside names) (.identifier name :: lexemes.map Lexeme.kind))
    {gap rest rest' : List Char} (hgap : IsGap gap ("from".toList ++ rest'))
    (hspell : spell lexemes last = gap ++ ("from".toList ++ rest)) : StopsAt isWordPart rest := by
  intro c hc
  by_contra hpart
  obtain ⟨more, rfl⟩ := List.head?_eq_some_iff.mp hc
  have hsplit := (List.takeWhile_append_dropWhile (p := isWordPart) (l := more)).symm
  have hword : ∀ c' ∈ "rom".toList ++ c :: more.takeWhile isWordPart, isWordPart c' = true := by
    intro c' hc'
    rcases List.mem_append.mp hc' with hc' | hc'
    · exact List.all_eq_true.mp (show "rom".toList.all isWordPart = true by decide +kernel) c' hc'
    · rcases List.mem_cons.mp hc' with rfl | hc'
      · exact Bool.not_eq_false _ ▸ hpart
      · exact List.all_eq_true.mp List.all_takeWhile c' hc'
  have hstop : StopsAt isWordPart (more.dropWhile isWordPart) := by
    intro c' hc'
    have hnot := List.head?_dropWhile_not isWordPart more
    rw [Option.mem_def.mp hc'] at hnot
    exact hnot
  have hreads : Reads _ ('f' :: ("rom".toList ++ c :: more.takeWhile isWordPart)) _ :=
    .word (by decide +kernel) hword hstop
  have hgap' : IsGap gap (('f' :: ("rom".toList ++ c :: more.takeWhile isWordPart)) ++
      more.dropWhile isWordPart) :=
    hgap.before (by decide) (by decide) (by decide +kernel) _
  rw [hsplit] at hspell
  obtain ⟨lexeme, behind, rfl, hkind, _⟩ := first_of_spell hfit hgap' hreads.spells hspell
  obtain ⟨name', hname'⟩ := ofWord_from c (more.takeWhile isWordPart)
  have hbeside := (List.isChain_cons_cons.mp hrow).1
  rw [hkind] at hbeside
  exact Beside.not_two_names name name' (hname' ▸ hbeside)

theorem kinds_edited (hedit : edit.Spells) (hfit : Fit lexemes last)
    (hrow : List.IsChain (Beside names) (before :: lexemes.map Lexeme.kind))
    (hfit' : Fit lexemes' last')
    (hrow' : List.IsChain (Beside names') (before.changed edit.change :: lexemes'.map Lexeme.kind))
    (hspell : spell lexemes' last' = spell (lexemes.map (edited edit)) last) :
    lexemes'.map Lexeme.kind = (lexemes.map (edited edit)).map Lexeme.kind := by
  induction hfit generalizing before lexemes' with
  | @done last hlast =>
    cases hfit' with
    | done => rfl
    | token hgap' hspells' _ =>
      have hscan := scan_token hgap' hspells' .start
      rw [spell] at hspell
      rw [hspell, List.map_nil, spell, scan_done hlast] at hscan
      cases hscan
  | @token lexeme rest last gap spells behind ih =>
    obtain ⟨hbeside, hbehind⟩ := List.isChain_cons_cons.mp hrow
    have hreads := reads_of_spells spells
    have hreads' : Reads (edited edit lexeme).kind (edited edit lexeme).text
        (spell (rest.map (edited edit)) last) := by
      rcases head_edited hedit behind hbehind with hsame | hequal | ⟨hfrom, _⟩
      · exact reads_edited hedit hreads behind hbehind (.inl hsame)
      · exact reads_edited hedit hreads behind hbehind (.inr hequal)
      · have hsame : edited edit lexeme = lexeme := edited_unwritten (by rw [hfrom]; rfl)
        rw [hfrom] at hreads hbeside
        have htext := hreads.text_eq rfl
        obtain ⟨name, rfl⟩ := hbeside.before_fromWord
        rw [List.map_cons, spell, hsame, htext] at hspell
        rw [htext] at gap
        have hstop := stopsAt_from hfit' hrow' gap hspell
        rw [hsame, hfrom]
        exact hreads.before_stop hstop
    obtain ⟨lexeme', behind', rfl, hkind, hfit'', hspell'⟩ :=
      first_of_spell hfit' (isGap_edited gap hreads hreads') hreads'.spells hspell
    obtain ⟨_, hrow''⟩ := List.isChain_cons_cons.mp hrow'
    rw [hkind, kind_edited] at hrow''
    rw [List.map_cons, List.map_cons, List.map_cons, hkind, ih hbehind hfit'' hrow'' hspell']

theorem sources_of_parse {source output : String} {program program' : Program}
    (h : SpelledBy source program lexemes last) (hedit : edit.Spells)
    (houtput : output.toList = spell (lexemes.map (edited edit)) last)
    (hparse : parseText output = .ok program') :
    ∀ name ∈ program.statements.filterMap Stmt.imported?,
      ∃ name', edit.change (.string name) = .string name' := by
  intro name hname
  obtain ⟨lexemes', last', h'⟩ := exists_spelledBy hparse
  have hkinds := kinds_edited hedit h.fit h.row h'.fit h'.row (h'.text.symm.trans houtput)
  have hinfix := source_infix h.statements hname
  rw [kinds_tokensOf] at hinfix
  have hinfix' : [.fromWord, .ofLiteral (edit.change (.string name))] <:+:
      lexemes'.map Lexeme.kind := by
    have hchanged : (lexemes.map (edited edit)).map Lexeme.kind =
        (lexemes.map Lexeme.kind).map (TokenKind.changed edit.change) := by
      rw [List.map_map, List.map_map]
      exact List.map_congr_left fun lexeme _ => kind_edited edit lexeme
    rw [hkinds, hchanged]
    exact hinfix.map (TokenKind.changed edit.change)
  have hpair := List.IsChain.infix h'.row (hinfix'.trans (List.suffix_cons _ _).isInfix)
  have hbeside := List.isChain_pair.mp hpair
  rcases hbeside.before_literal (literal?_ofLiteral _) with hequal | ⟨_, name', _, hname'⟩
  · cases hequal
  · exact ⟨name', hname'⟩

/-- Writing literals in a module gives a module where it leaves strings behind each `from`, and only
there. -/
theorem editing_ok_iff {source : String} {program : Program} (hedit : edit.Spells)
    (hparse : parseText source = .ok program) :
    (∃ output, transformerOf (editing edit) source = .ok output) ↔
      ∀ name ∈ program.statements.filterMap Stmt.imported?,
        ∃ name', edit.change (.string name) = .string name' := by
  constructor
  · rintro ⟨output, houtput⟩
    obtain ⟨lexemes, last, h⟩ := exists_spelledBy hparse
    rw [transform_editing edit hparse h.fit h.text h.statements, checkOutput_eq hparse] at houtput
    cases hwritten : parseText (.ofList (spell (lexemes.map (edited edit)) last)) with
    | error cause =>
      rw [hwritten] at houtput
      cases houtput
    | ok program' => exact sources_of_parse h hedit String.toList_ofList hwritten
  · intro hsources
    obtain ⟨output, _, houtput, _⟩ := editing_ok hedit hparse hsources
    exact ⟨output, houtput⟩

end Alignment

section Spans

variable {source : String} {edit : LiteralEdit} {lexemes : List Lexeme} {last : List Char}

/-- The source from a byte on, with other texts where some spans are, which stand one behind the
other. -/
def revisedFrom (source : String) : Nat → List (Span × String) → String
  | first, [] => between source first source.utf8ByteSize
  | first, (span, text) :: behind =>
    between source first span.start.offset ++ text ++ revisedFrom source span.stop.offset behind

def LiteralEdit.texts (edit : LiteralEdit) (literals : List (Span × Literal)) :
    List (Span × String) :=
  literals.filterMap fun literal => (edit literal.2).map fun written => (literal.1, written.1)

theorem between_append (source : String) {first middle stop : Nat} (h : first ≤ middle)
    (h' : middle ≤ stop) :
    between source first middle ++ between source middle stop = between source first stop := by
  rw [← ofList_piecesBetween, ← ofList_piecesBetween, ← ofList_piecesBetween, ← String.ofList_append,
    ← List.flatten_append, piecesBetween_append source h h']

theorem between_chars {front cs back : List Char} (h : source.toList = front ++ (cs ++ back)) :
    between source (Position.start.advance front).offset
      (Position.start.advance (front ++ cs)).offset = .ofList cs := by
  have hfront := offset_advance_ofChars .start front
  have hcs := offset_advance_ofChars (Position.start.advance front) cs
  rw [show Position.start.offset = 0 from rfl, Nat.zero_add] at hfront
  rw [Position.advance_append, hcs, hfront, ← ofList_piecesBetween, piecesBetween, h,
    toList_ofChars_append, toList_ofChars_append, ← List.append_assoc, ← List.length_append,
    List.take_left, List.drop_left, flatten_toList_ofChars]

theorem between_advance {front cs back : List Char} (h : source.toList = front ++ (cs ++ back))
    {first : Nat} (hfirst : first ≤ (Position.start.advance front).offset) :
    between source first (Position.start.advance (front ++ cs)).offset =
      between source first (Position.start.advance front).offset ++ .ofList cs := by
  rw [← between_chars h, between_append source hfirst]
  rw [Position.advance_append]
  exact Position.offset_le_advance _ _

theorem texts_token (edit : LiteralEdit) (token : Token) (rest : List Token) :
    edit.texts ((token :: rest).filterMap literalOfToken?) =
      match token.kind.literal?.bind edit with
      | some (text, _) => (token.span, text) :: edit.texts (rest.filterMap literalOfToken?)
      | none => edit.texts (rest.filterMap literalOfToken?) := by
  rw [List.filterMap_cons, literalOfToken?]
  cases token.kind.literal? with
  | none => rfl
  | some value =>
    dsimp only [Option.map_some, Option.bind_some, LiteralEdit.texts]
    rw [List.filterMap_cons]
    rcases edit value with _ | ⟨text, result⟩ <;> rfl

theorem revisedFrom_spell (edit : LiteralEdit) (hfit : Fit lexemes last) {front : List Char}
    (hsource : source.toList = front ++ spell lexemes last) {first : Nat}
    (hfirst : first ≤ (Position.start.advance front).offset) :
    revisedFrom source first
        (edit.texts ((tokensOf (.advance .start front) lexemes).filterMap literalOfToken?)) =
      between source first (Position.start.advance front).offset ++
        .ofList (spell (lexemes.map (edited edit)) last) := by
  induction hfit generalizing front first with
  | @done last gap =>
    change source.toList = front ++ last at hsource
    have hsize : source.utf8ByteSize = (Position.start.advance (front ++ last)).offset := by
      rw [← hsource, Position.offset_advance_toList]
    rw [← List.append_nil last] at hsource
    change between source first source.utf8ByteSize = _
    rw [hsize]
    exact between_advance hsource hfirst
  | @token lexeme rest last gap spells behind ih =>
    rw [spell] at hsource
    have hgap := between_advance hsource hfirst
    have hbehind : source.toList = (front ++ lexeme.gap ++ lexeme.text) ++ spell rest last := by
      simp [hsource]
    have hstart : first ≤ (Position.start.advance (front ++ lexeme.gap)).offset := by
      rw [Position.advance_append]
      exact hfirst.trans (Position.offset_le_advance _ _)
    have hstop : (Position.start.advance (front ++ lexeme.gap)).offset ≤
        (Position.start.advance (front ++ lexeme.gap ++ lexeme.text)).offset := by
      rw [Position.advance_append _ (front ++ lexeme.gap)]
      exact Position.offset_le_advance _ _
    rw [tokensOf, ← Position.advance_append, ← Position.advance_append, texts_token, List.map_cons,
      spell, gap_edited, String.ofList_append, String.ofList_append, ← String.append_assoc, ← hgap]
    dsimp only
    rcases hwrite : lexeme.kind.literal?.bind edit with _ | ⟨text, value⟩
    · -- the lexeme stands in the stretch of the source before the next text that is written
      have htext : source.toList = (front ++ lexeme.gap) ++ (lexeme.text ++ spell rest last) := by
        simp [hsource]
      rw [edited_unwritten hwrite, ← String.append_assoc, ← between_advance htext hstart]
      exact ih hbehind (hstart.trans hstop)
    · have hnothing := between_chars (show source.toList =
          (front ++ lexeme.gap ++ lexeme.text) ++ ([] ++ spell rest last) from hbehind)
      rw [List.append_nil] at hnothing
      rw [edited_written hwrite]
      dsimp only [revisedFrom]
      rw [ih hbehind (Nat.le_refl _), hnothing, String.ofList_toList, String.append_assoc]
      rfl

/-- The output is the source with the texts of the edit where the literals of the tree stand. -/
theorem output_editing {program : Program} {output : String}
    (hparse : parseText source = .ok program)
    (h : transformerOf (editing edit) source = .ok output) :
    output = revisedFrom source 0 (edit.texts (program.nodes.filterMap literalOfNode?)) := by
  obtain ⟨lexemes, last, hspelled⟩ := exists_spelledBy hparse
  rw [transform_editing edit hparse hspelled.fit hspelled.text hspelled.statements,
    checkOutput_eq hparse] at h
  have houtput : output = .ofList (spell (lexemes.map (edited edit)) last) := by
    split at h
    · exact (Except.ok.inj h).symm
    · cases h
  have hnothing : between source 0 0 = "" :=
    between_chars (show source.toList = [] ++ ([] ++ source.toList) from rfl)
  have hrevised := revisedFrom_spell edit hspelled.fit
    (show source.toList = [] ++ spell lexemes last from hspelled.text) (Nat.le_refl 0)
  rw [houtput, literals_of_program hspelled.statements]
  refine (hrevised.trans ?_).symm
  change between source 0 0 ++ _ = _
  rw [hnothing, String.empty_append]

end Spans

section Literals

variable {source text : String} {program : Program} {target value : Literal}

theorem replaceString_eq (old new : String) : replaceString old new =
    transformerOf (editing (replacing (.string old) (quote new) (.string new))) :=
  replaceLiteral_eq _ _ _

theorem quotes_replacing (old new : String) :
    (replacing (.string old) (quote new) (.string new)).Quotes := by
  intro value text result hwrite
  obtain ⟨hvalue, hpair⟩ := Option.ite_none_right_eq_some.mp hwrite
  cases hpair
  exact ⟨old, new, hvalue, rfl, rfl⟩

theorem LiteralEdit.Quotes.sources {edit : LiteralEdit} (h : edit.Quotes) (name : String) :
    ∃ name', edit.change (.string name) = .string name' := by
  unfold LiteralEdit.change
  rcases hwrite : edit (.string name) with _ | ⟨text, result⟩
  · exact ⟨name, rfl⟩
  · obtain ⟨_, new, _, rfl, _⟩ := h _ _ _ hwrite
    exact ⟨new, rfl⟩

theorem texts_replacing (target : Literal) (text : String) (value : Literal) (nodes : List Node) :
    (replacing target text value).texts (nodes.filterMap literalOfNode?) =
      (nodes.filter fun node => node.literal = some target).map fun node => (node.span, text) := by
  induction nodes with
  | nil => rfl
  | cons node rest ih =>
    rw [List.filterMap_cons, List.filter_cons, literalOfNode?]
    rcases hliteral : node.literal with _ | old
    · exact ih
    · by_cases hsame : old = target
      · subst hsame
        have hwrite : replacing old text value old = some (text, value) := if_pos rfl
        rw [if_pos (by simp), List.map_cons, ← ih]
        dsimp only [Option.map_some]
        rw [LiteralEdit.texts, List.filterMap_cons]
        dsimp only
        rw [hwrite]
        rfl
      · have hwrite : replacing target text value old = none := if_neg hsame
        rw [if_neg (by simp [hsame]), ← ih]
        dsimp only [Option.map_some]
        rw [LiteralEdit.texts, List.filterMap_cons]
        dsimp only
        rw [hwrite]
        rfl

/-- Literals are replaced in the tree: it succeeds unless a module would no longer be named by a
string, the tree of the output has the new literal wherever the old one was and is the same
otherwise, and the output is the source with the new text exactly where the literal stood. Strings
can always be replaced by strings. -/
theorem literal_substitution (hparse : parseText source = .ok program) (htext : IsTextOf text value)
    (target : Literal) :
    ((∃ output, replaceLiteral target text source = .ok output) ↔
      (∃ string, value = .string string) ∨
        ∀ name ∈ program.statements.filterMap Stmt.imported?, target ≠ .string name) ∧
    (∀ output, replaceLiteral target text source = .ok output →
      (∃ program', parseText output = .ok program' ∧
        List.Forall₂ (Stmt.Like fun old => if old = target then value else old)
          program.statements program'.statements) ∧
      output = revisedFrom source 0
        ((program.nodes.filter fun node => node.literal = some target).map
          fun node => (node.span, text))) ∧
    ∀ old new, ∃ output, replaceString old new source = .ok output := by
  have hedit : (replacing target text value).Spells := spells_replacing htext
  have hchange := change_replacing target text value
  rw [replaceLiteral_eq target text value]
  have hiff := editing_ok_iff hedit hparse
  refine ⟨?_, ?_, ?_⟩
  · rw [hiff, hchange]
    constructor
    · intro hsources
      by_cases himported : ∀ name ∈ program.statements.filterMap Stmt.imported?, target ≠ .string name
      · exact .inr himported
      · push Not at himported
        obtain ⟨name, hname, rfl⟩ := himported
        obtain ⟨name', hname'⟩ := hsources name hname
        exact .inl ⟨name', by simpa using hname'⟩
    · rintro (⟨string, rfl⟩ | hnone) name hname
      · by_cases hsame : Literal.string name = target
        · exact ⟨string, if_pos hsame⟩
        · exact ⟨name, if_neg hsame⟩
      · exact ⟨name, if_neg (hnone name hname).symm⟩
  · intro output houtput
    obtain ⟨output', program', houtput', hparse', hlike⟩ :=
      editing_ok hedit hparse (hiff.mp ⟨output, houtput⟩)
    obtain rfl := Except.ok.inj (houtput.symm.trans houtput')
    refine ⟨⟨program', hparse', hchange ▸ hlike⟩, ?_⟩
    rw [output_editing hparse houtput, texts_replacing]
  · intro old new
    have hquotes := quotes_replacing old new
    rw [replaceString_eq]
    exact (editing_ok_iff hquotes.spells hparse).mpr fun name _ => hquotes.sources name

def crowdedSource : String := "import a from\"x\";let b=\"x\";let c=7//\n;"

theorem literal_substitution_crowded : ∃ program, parseText crowdedSource = .ok program ∧
    IsTextOf "true" (.boolean true) ∧
    (¬ ∃ output, replaceLiteral (.string "x") "true" crowdedSource = .ok output) ∧
    ∃ output, replaceLiteral (.integer 7) "true" crowdedSource = .ok output ∧
      output = "import a from\"x\";let b=\"x\";let c=true//\n;" ∧
      ∃ program', parseText output = .ok program' := by
  have himported : (parseText crowdedSource).toOption.map
      (fun program => program.statements.filterMap Stmt.imported?) = some ["x"] := by decide +kernel
  have htext : IsTextOf "true" (.boolean true) := ⟨⟨1, 5, 4⟩, by decide +kernel⟩
  have hoption : (replaceLiteral (.integer 7) "true" crowdedSource).toOption =
      some "import a from\"x\";let b=\"x\";let c=true//\n;" := by decide +kernel
  rcases hparse : parseText crowdedSource with cause | program
  all_goals rw [hparse] at himported
  · cases himported
  · have hnames : program.statements.filterMap Stmt.imported? = ["x"] := Option.some.inj himported
    refine ⟨program, rfl, htext, fun hsome => ?_, ?_⟩
    · rcases (literal_substitution hparse htext (.string "x")).1.mp hsome with ⟨_, hstring⟩ | hnone
      · cases hstring
      · exact hnone "x" (hnames ▸ List.mem_singleton_self _) rfl
    · obtain ⟨hiff, htree, _⟩ := literal_substitution hparse htext (.integer 7)
      obtain ⟨output, houtput⟩ := hiff.mpr (.inr fun _ _ h => by cases h)
      obtain ⟨⟨program', hparse', _⟩, _⟩ := htree output houtput
      rw [houtput] at hoption
      exact ⟨output, houtput, Option.some.inj hoption, program', hparse'⟩

end Literals

end Interpose.Edit
