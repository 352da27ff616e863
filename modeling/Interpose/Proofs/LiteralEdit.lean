import Mathlib.Data.List.Induction
import Interpose.Edit.Stock
import Interpose.Proofs.Neighbours
import Interpose.Proofs.TreeRewriting

set_option autoImplicit false

namespace Interpose.Edit
open Script

/-- The text that is written for a literal, with the literal that it spells. -/
abbrev LiteralEdit := Literal → Option (String × Literal)

def editing (edit : LiteralEdit) (node : Node) : Visit Unit :=
  match node.literal.bind edit with
  | some (text, _) => .update text (.done ())
  | none => .done ()

def LiteralEdit.change (edit : LiteralEdit) (value : Literal) : Literal :=
  ((edit value).map Prod.snd).getD value

def stringEdit (table : List (String × String)) : LiteralEdit
  | .string value => (replacementFor table value).map fun replacement =>
      (quote replacement, .string replacement)
  | _ => none

theorem replaceStrings_eq (table : List (String × String)) :
    replaceStrings table = transformerOf (editing (stringEdit table)) := by
  unfold replaceStrings
  congr 1
  funext node
  unfold editing
  rcases node.literal with _ | (value | value | value | _)
  · rfl
  · dsimp only [Option.bind_some, stringEdit]
    cases replacementFor table value <;> rfl
  · rfl
  · rfl
  · rfl

section Literals

def literalOfNode? (node : Node) : Option (Span × Literal) :=
  node.literal.map fun value => (node.span, value)

def literalOfToken? (token : Token) : Option (Span × Literal) :=
  token.kind.literal?.map fun value => (token.span, value)

theorem literalOfNode?_ofIdent (name : Ident) : literalOfNode? (.ofIdent name) = none := rfl

theorem literalOfToken?_eq_none {token : Token} {kind : TokenKind} (h : token.kind = kind)
    (hkind : kind.literal? = none) : literalOfToken? token = none := by
  rw [literalOfToken?, h, hkind]
  rfl

theorem literals_nodesBefore (value : Expr) (rest : List Node) :
    (value.nodesBefore rest).filterMap literalOfNode? =
      (value.nodesBefore []).filterMap literalOfNode? ++ rest.filterMap literalOfNode? := by
  rw [← List.filterMap_append, ← Expr.nodesBefore_append, List.nil_append]

variable {tokens : List Token}

theorem literals_of_continues {head value : Expr} (h : head.Continues tokens value) :
    tokens.filterMap literalOfToken? = [] ∧
      (value.nodesBefore []).filterMap literalOfNode? =
        (head.nodesBefore []).filterMap literalOfNode? := by
  induction h with
  | stop => exact ⟨rfl, rfl⟩
  | property hdot hname hbehind ih =>
    refine ⟨?_, ih.2.trans ?_⟩
    · rw [List.filterMap_cons_none (literalOfToken?_eq_none hdot rfl),
        List.filterMap_cons_none (literalOfToken?_eq_none hname rfl), ih.1]
    · rw [Expr.nodesBefore, literals_nodesBefore]
      exact List.append_nil _

theorem literals_of_expr {value : Expr} (h : Expr.ReadFrom tokens value) :
    (value.nodesBefore []).filterMap literalOfNode? = tokens.filterMap literalOfToken? := by
  cases h with
  | @literal token value hvalue =>
    have htoken : literalOfToken? token = some (token.span, value) := by
      rw [literalOfToken?, hvalue]
      rfl
    rw [List.filterMap_cons_some htoken]
    rfl
  | chain hname hbehind =>
    obtain ⟨htokens, hnodes⟩ := literals_of_continues hbehind
    rw [List.filterMap_cons_none (literalOfToken?_eq_none hname rfl), htokens, hnodes]
    rfl

theorem literals_of_stmt {stmt : Stmt} (h : Stmt.ReadFrom tokens stmt) :
    stmt.nodes.filterMap literalOfNode? = tokens.filterMap literalOfToken? := by
  cases h with
  | @imports first name between source last text value hfirst hname hbetween hsource hlast =>
    have htoken : literalOfToken? source = some (source.span, .string value) := by
      rw [literalOfToken?, hsource]
      rfl
    rw [List.filterMap_cons_none (literalOfToken?_eq_none hfirst rfl),
      List.filterMap_cons_none (literalOfToken?_eq_none hname rfl),
      List.filterMap_cons_none (literalOfToken?_eq_none hbetween rfl),
      List.filterMap_cons_some htoken,
      List.filterMap_cons_none (literalOfToken?_eq_none hlast rfl)]
    rfl
  | @binding first name between last make text taken value hfirst hname hbetween hvalue hlast =>
    have hnodes : ∀ kind span,
        (Node.ofIdent ⟨text, name.span⟩ :: value.nodesBefore [.ofParts kind span]).filterMap
          literalOfNode? = taken.filterMap literalOfToken? := by
      intro kind span
      rw [List.filterMap_cons_none (literalOfNode?_ofIdent _), literals_nodesBefore,
        literals_of_expr hvalue]
      exact List.append_nil _
    have htokens : (first :: name :: between :: (taken ++ [last])).filterMap literalOfToken? =
        taken.filterMap literalOfToken? := by
      have hword : first.kind.literal? = none := by
        generalize first.kind = kind at hfirst
        cases hfirst <;> rfl
      rw [List.filterMap_cons_none (literalOfToken?_eq_none rfl hword),
        List.filterMap_cons_none (literalOfToken?_eq_none hname rfl),
        List.filterMap_cons_none (literalOfToken?_eq_none hbetween rfl), List.filterMap_append,
        List.filterMap_cons_none (literalOfToken?_eq_none hlast rfl)]
      exact List.append_nil _
    rw [htokens]
    generalize first.kind = kind at hfirst
    cases hfirst
    · exact hnodes .letDecl _
    · exact hnodes .exportDecl _

theorem literals_of_statements {stmts : List Stmt} (h : StatementsFrom tokens stmts) :
    (stmts.flatMap Stmt.nodes).filterMap literalOfNode? = tokens.filterMap literalOfToken? := by
  induction h with
  | done => rfl
  | next first then_ ih =>
    rw [List.flatMap_cons, List.filterMap_append, List.filterMap_append, literals_of_stmt first, ih]

theorem literals_of_program {program : Program} (h : StatementsFrom tokens program.statements) :
    program.nodes.filterMap literalOfNode? = tokens.filterMap literalOfToken? := by
  rw [Program.nodes, List.filterMap_append, literals_of_statements h]
  exact List.append_nil _

end Literals

section Writes

variable (edit : LiteralEdit)

def writes : List (Span × Literal) → Chunks → Chunks
  | [], chunks => chunks
  | (span, value) :: rest, chunks =>
    match edit value with
    | some (text, _) => writes rest (chunks.write span.start.offset span.stop.offset text.toList)
    | none => writes rest chunks

theorem visitNodes_editing (nodes : List Node) (chunks : Chunks) :
    visitNodes (fun node _ => editing edit node) nodes () chunks =
      .ok ((), writes edit (nodes.filterMap literalOfNode?) chunks) := by
  induction nodes generalizing chunks with
  | nil => rfl
  | cons node rest ih =>
    rw [visitNodes, List.filterMap_cons]
    unfold editing literalOfNode?
    rcases node.literal with _ | value
    · exact ih chunks
    · dsimp only [Option.bind_some, Option.map_some]
      rw [writes]
      rcases edit value with _ | ⟨text, result⟩
      · exact ih chunks
      · exact ih _

def edited (lexeme : Lexeme) : Lexeme :=
  match lexeme.kind.literal?.bind edit with
  | some (text, value) => ⟨lexeme.gap, text.toList, .ofLiteral value⟩
  | none => lexeme

variable {edit}

theorem edited_unwritten {lexeme : Lexeme} (h : lexeme.kind.literal?.bind edit = none) :
    edited edit lexeme = lexeme := by
  rw [edited, h]

theorem edited_written {lexeme : Lexeme} {text : String} {value : Literal}
    (h : lexeme.kind.literal?.bind edit = some (text, value)) :
    edited edit lexeme = ⟨lexeme.gap, text.toList, .ofLiteral value⟩ := by
  rw [edited, h]

theorem writes_token (token : Token) (rest : List Token) (chunks : Chunks) :
    writes edit ((token :: rest).filterMap literalOfToken?) chunks =
      writes edit (rest.filterMap literalOfToken?)
        (match token.kind.literal?.bind edit with
        | some (text, _) => chunks.write token.start.offset token.stop.offset text.toList
        | none => chunks) := by
  rw [List.filterMap_cons, literalOfToken?]
  cases token.kind.literal? with
  | none => rfl
  | some value =>
    dsimp only [Option.map_some, Option.bind_some]
    rw [writes]
    rcases edit value with _ | ⟨text, result⟩ <;> rfl

theorem toList_ofChars_append (xs ys : List Char) : (Chunks.ofChars (xs ++ ys)).toList =
    (Chunks.ofChars xs).toList ++ (Chunks.ofChars ys).toList := by
  simp [Chunks.ofChars]

theorem flatten_toList_ofChars (cs : List Char) : (Chunks.ofChars cs).toList.flatten = cs :=
  Chunks.chars_ofChars cs

theorem offset_advance_ofChars (p : Position) (cs : List Char) :
    (p.advance cs).offset = p.offset + (Chunks.ofChars cs).toList.length := by
  rw [Position.offset_advance, Array.length_toList, Chunks.size_ofChars]

theorem chars_writes {lexemes : List Lexeme} {last : List Char} (h : Fit lexemes last) (p : Position)
    (front : List (List Char)) (hfront : front.length = p.offset) :
    (writes edit ((tokensOf p lexemes).filterMap literalOfToken?)
        (front ++ (Chunks.ofChars (spell lexemes last)).toList).toArray).chars =
      front.flatten ++ spell (lexemes.map (edited edit)) last := by
  induction h generalizing p front with
  | @done last gap =>
    simp only [tokensOf, List.filterMap_nil, writes, Chunks.chars, spell, List.map_nil,
      List.flatten_append, flatten_toList_ofChars]
  | @token lexeme rest last gap spells behind ih =>
    have hstart := offset_advance_ofChars p lexeme.gap
    have hstop := offset_advance_ofChars (p.advance lexeme.gap) lexeme.text
    have hlong := Position.offset_lt_advance (p.advance lexeme.gap) spells.length_pos
    have hbefore : (front ++ (Chunks.ofChars lexeme.gap).toList).length =
        (p.advance lexeme.gap).offset := by
      rw [List.length_append]
      omega
    -- whatever stands in place of the lexeme, the other writes come behind it
    have hbehind : ∀ mid : List (List Char),
        mid.length = (Chunks.ofChars lexeme.text).toList.length →
        (writes edit ((tokensOf ((p.advance lexeme.gap).advance lexeme.text) rest).filterMap
            literalOfToken?)
          (front ++ (Chunks.ofChars lexeme.gap).toList ++ mid ++
            (Chunks.ofChars (spell rest last)).toList).toArray).chars =
          front.flatten ++ (lexeme.gap ++ (mid.flatten ++ spell (rest.map (edited edit)) last)) := by
      intro mid hmid
      rw [ih ((p.advance lexeme.gap).advance lexeme.text) _ (by
        rw [List.length_append, hbefore, hmid, hstop])]
      simp only [List.flatten_append, flatten_toList_ofChars, List.append_assoc]
    have hchunks : front ++ (Chunks.ofChars (spell (lexeme :: rest) last)).toList =
        front ++ (Chunks.ofChars lexeme.gap).toList ++ (Chunks.ofChars lexeme.text).toList ++
          (Chunks.ofChars (spell rest last)).toList := by
      simp only [spell, toList_ofChars_append, List.append_assoc]
    rw [hchunks, tokensOf, writes_token, List.map_cons, spell]
    dsimp only
    rcases hwrite : lexeme.kind.literal?.bind edit with _ | ⟨text, value⟩
    · rw [edited_unwritten hwrite, hbehind _ rfl, flatten_toList_ofChars]
    · have hwritten := write_middle (front ++ (Chunks.ofChars lexeme.gap).toList)
        (Chunks.ofChars lexeme.text).toList (Chunks.ofChars (spell rest last)).toList
        (by omega) text.toList
      rw [hbefore, ← hstop] at hwritten
      rw [edited_written hwrite]
      dsimp only [Token.start, Token.stop]
      rw [hwritten, hbehind]
      · simp
      · rw [List.length_cons, List.length_replicate]
        omega

end Writes

section Transform

variable {edit : LiteralEdit} {source : String} {program : Program} {lexemes : List Lexeme}
  {last : List Char}

/-- The output is spelled by the edited lexemes. -/
theorem transform_editing (edit : LiteralEdit) (hparse : parseText source = .ok program)
    (hfit : Fit lexemes last) (hspell : source.toList = spell lexemes last)
    (hstatements : StatementsFrom (tokensOf .start lexemes) program.statements) :
    transformerOf (editing edit) source =
      (checkOutput source (.ofList (spell (lexemes.map (edited edit)) last))).mapError
        Halt.error := by
  have hchars : (writes edit ((tokensOf .start lexemes).filterMap literalOfToken?)
      (.ofChars source.toList)).chars = spell (lexemes.map (edited edit)) last :=
    hspell ▸ chars_writes hfit .start [] rfl
  unfold transformerOf revise
  rw [hparse]
  dsimp only
  rw [visitNodes_editing, literals_of_program hstatements]
  dsimp only
  rw [hchars]

/-- What is written for a literal is a text of the literal that it stands for. -/
def LiteralEdit.Spells (edit : LiteralEdit) : Prop :=
  ∀ value text result, edit value = some (text, result) →
    Reads (.ofLiteral result) text.toList []

/-- Every literal that is written for is a string, and the text that is written quotes another. -/
def LiteralEdit.Quotes (edit : LiteralEdit) : Prop :=
  ∀ value text result, edit value = some (text, result) →
    ∃ old new, value = .string old ∧ result = .string new ∧ text = quote new

theorem LiteralEdit.Quotes.spells (h : edit.Quotes) : edit.Spells := by
  intro value text result hwrite
  obtain ⟨_, new, _, rfl, rfl⟩ := h value text result hwrite
  exact reads_quote new []

theorem quotes_stringEdit (table : List (String × String)) : (stringEdit table).Quotes := by
  intro value text result h
  cases value with
  | string old =>
    obtain ⟨new, _, hnew⟩ := Option.map_eq_some_iff.mp h
    cases hnew
    exact ⟨old, new, rfl, rfl, rfl⟩
  | integer value | boolean value | null => cases h

theorem literal?_eq_string {kind : TokenKind} {value : String}
    (h : kind.literal? = some (.string value)) : kind = .string value := by
  cases kind <;> cases h
  rfl

theorem gap_edited (edit : LiteralEdit) (lexeme : Lexeme) :
    (edited edit lexeme).gap = lexeme.gap := by
  unfold edited
  split <;> rfl

theorem kind_edited (edit : LiteralEdit) (lexeme : Lexeme) :
    (edited edit lexeme).kind = lexeme.kind.changed edit.change := by
  rcases hwrite : lexeme.kind.literal?.bind edit with _ | ⟨text, value⟩
  · rw [edited_unwritten hwrite]
    unfold TokenKind.changed LiteralEdit.change
    cases hliteral : lexeme.kind.literal? with
    | none => rfl
    | some old =>
      rw [hliteral, Option.bind_some] at hwrite
      dsimp only
      rw [hwrite]
      exact (ofLiteral_of_literal? hliteral).symm
  · rw [edited_written hwrite]
    obtain ⟨old, hliteral, hwrite⟩ := Option.bind_eq_some_iff.mp hwrite
    unfold TokenKind.changed LiteralEdit.change
    rw [hliteral]
    dsimp only
    rw [hwrite]
    rfl

theorem likeTokens_edited (edit : LiteralEdit) (lexemes : List Lexeme) (p p' : Position) :
    LikeTokens edit.change (tokensOf p lexemes) (tokensOf p' (lexemes.map (edited edit))) := by
  induction lexemes generalizing p p' with
  | nil => exact .nil
  | cons lexeme rest ih =>
    rw [List.map_cons, tokensOf, tokensOf]
    exact .cons (kind_edited edit lexeme) (ih _ _)

variable {names : List String} {before : TokenKind}

/-- An edit changes what is next only behind an equals sign, or behind the `from` of an import whose
module is no longer named by a string. -/
theorem head_edited (hedit : edit.Spells) (hfit : Fit lexemes last)
    (hrow : List.IsChain (Beside names) (before :: lexemes.map Lexeme.kind)) :
    (spell (lexemes.map (edited edit)) last).head? = (spell lexemes last).head? ∨
      before = .equal ∨
      before = .fromWord ∧ ∃ name ∈ names, ∀ name', edit.change (.string name) ≠ .string name' := by
  cases hfit with
  | done => exact .inl rfl
  | @token lexeme rest last gap spells behind =>
    have hreads := reads_of_spells spells
    obtain ⟨c, body, hc, _⟩ := hreads.isBlank_head
    rw [List.map_cons, spell, spell, gap_edited]
    rcases hgap : lexeme.gap with _ | ⟨blank, more⟩
    · rcases hwrite : lexeme.kind.literal?.bind edit with _ | ⟨text, result⟩
      · rw [edited_unwritten hwrite, hc]
        exact .inl rfl
      · obtain ⟨value, hvalue, hwrite'⟩ := Option.bind_eq_some_iff.mp hwrite
        refine ((List.isChain_cons_cons.mp hrow).1.before_literal hvalue).symm.elim ?_ (.inr ∘ .inl)
        rintro ⟨hfrom, name, hname, rfl⟩
        by_cases hstring : ∃ name', edit.change (.string name) = .string name'
        · obtain ⟨name', hname'⟩ := hstring
          have hresult : result = .string name' := by
            rw [← hname', LiteralEdit.change, hwrite']
            rfl
          subst hresult
          have hquote : text.toList.head? = some '"' := (hedit _ _ _ hwrite').head_of_string
          rw [literal?_eq_string hvalue] at hreads
          rw [edited_written hwrite, List.nil_append, List.nil_append, List.head?_append, hquote,
            List.head?_append, hreads.head_of_string]
          exact .inl rfl
        · exact .inr (.inr ⟨hfrom, name, hname, not_exists.mp hstring⟩)
    · exact .inl rfl

/-- A literal in a row of tokens is read as whatever is written for it, and a token before it stays
as it is. -/
theorem reads_edited (hedit : edit.Spells) {lexeme : Lexeme} {rest : List Lexeme}
    (hreads : Reads lexeme.kind lexeme.text (spell rest last)) (hfit : Fit rest last)
    (hrow : List.IsChain (Beside names) (lexeme.kind :: rest.map Lexeme.kind)) {rest' : List Char}
    (hhead : rest'.head? = (spell rest last).head? ∨ lexeme.kind = .equal) :
    Reads (edited edit lexeme).kind (edited edit lexeme).text rest' := by
  rcases hwrite : lexeme.kind.literal?.bind edit with _ | ⟨text, result⟩
  · rw [edited_unwritten hwrite]
    rcases hhead with hhead | hequal
    · exact hreads.before hhead
    · rw [hequal] at hreads
      rw [hequal, hreads.text_eq rfl]
      exact .equal
  · obtain ⟨value, hvalue, hwrite'⟩ := Option.bind_eq_some_iff.mp hwrite
    have hnext : ∀ lexeme ∈ rest.head?, lexeme.kind = .semicolon := by
      intro next hnext
      obtain ⟨more, rfl⟩ := List.head?_eq_some_iff.mp hnext
      exact (List.isChain_cons_cons.mp hrow).1.behind_literal hvalue
    rw [edited_written hwrite]
    refine Reads.before ((hedit _ _ _ hwrite').before_stop (stopsAt_spell hfit hnext))
      (hhead.resolve_right ?_)
    intro hequal
    rw [hequal] at hvalue
    cases hvalue

theorem isGap_edited {lexeme : Lexeme} {rest rest' : List Char}
    (hgap : IsGap lexeme.gap (lexeme.text ++ rest)) (hreads : Reads lexeme.kind lexeme.text rest)
    (hreads' : Reads (edited edit lexeme).kind (edited edit lexeme).text rest') :
    IsGap (edited edit lexeme).gap ((edited edit lexeme).text ++ rest') := by
  obtain ⟨c, body, hc, _, hslash⟩ := hreads.isBlank_head
  obtain ⟨c', body', hc', hblank', hslash'⟩ := hreads'.isBlank_head
  rw [gap_edited, hc']
  rw [hc] at hgap
  exact hgap.before hslash hslash' hblank' _

/-- The lexemes of a module still fit when literals are written in it, and strings where modules are
named. -/
theorem fit_edited (hedit : edit.Spells) (hfit : Fit lexemes last)
    (hrow : List.IsChain (Beside names) (before :: lexemes.map Lexeme.kind))
    (hsources : ∀ name ∈ names, ∃ name', edit.change (.string name) = .string name') :
    Fit (lexemes.map (edited edit)) last := by
  induction hfit generalizing before with
  | done gap => exact .done gap
  | @token lexeme rest last gap spells behind ih =>
    have hbehind := (List.isChain_cons_cons.mp hrow).2
    have hreads := reads_of_spells spells
    have hhead : (spell (rest.map (edited edit)) last).head? = (spell rest last).head? ∨
        lexeme.kind = .equal := by
      refine (head_edited hedit behind hbehind).imp_right fun h => h.resolve_right ?_
      rintro ⟨_, name, hname, hnone⟩
      obtain ⟨name', hname'⟩ := hsources name hname
      exact hnone name' hname'
    have hreads' := reads_edited hedit hreads behind hbehind hhead
    exact .token (isGap_edited gap hreads hreads') hreads'.spells (ih hbehind)

structure SpelledBy (source : String) (program : Program) (lexemes : List Lexeme)
    (last : List Char) : Prop where
  fit : Fit lexemes last
  text : source.toList = spell lexemes last
  statements : StatementsFrom (tokensOf .start lexemes) program.statements

theorem exists_spelledBy (h : parseText source = .ok program) :
    ∃ lexemes last, SpelledBy source program lexemes last := by
  obtain ⟨lexemes, last, hfit, hspell, hstatements, _⟩ := parseText_iff.mp h
  exact ⟨lexemes, last, hfit, hspell, hstatements⟩

namespace SpelledBy

theorem row (h : SpelledBy source program lexemes last) :
    Row (program.statements.filterMap Stmt.imported?) (lexemes.map Lexeme.kind) := by
  rw [← kinds_tokensOf .start]
  exact row_of_statements h.statements fun _ hname => hname

theorem parseText (h : SpelledBy source program lexemes last) :
    parseText source =
      .ok ⟨program.statements, ⟨.start, Position.start.advance source.toList⟩⟩ :=
  parseText_iff.mpr ⟨lexemes, last, h.fit, h.text, h.statements, rfl⟩

theorem edited (h : SpelledBy source program lexemes last) (hedit : edit.Spells)
    (hsources : ∀ name ∈ program.statements.filterMap Stmt.imported?,
      ∃ name', edit.change (.string name) = .string name') :
    ∃ output program', transformerOf (editing edit) source = .ok output ∧
      SpelledBy output program' (lexemes.map (edited edit)) last ∧
      List.Forall₂ (Stmt.Like edit.change) program.statements program'.statements := by
  obtain ⟨stmts', hstmts', hlike⟩ :=
    h.statements.like hsources (likeTokens_edited edit lexemes .start .start)
  have hspelled : SpelledBy (.ofList (spell (lexemes.map (Edit.edited edit)) last))
      ⟨stmts', program.span⟩ (lexemes.map (Edit.edited edit)) last :=
    ⟨fit_edited hedit h.fit h.row hsources, String.toList_ofList, hstmts'⟩
  refine ⟨_, _, ?_, hspelled, hlike⟩
  rw [transform_editing edit h.parseText h.fit h.text h.statements, checkOutput_eq h.parseText,
    hspelled.parseText]
  rfl

end SpelledBy

/-- A text that is a module stays one when literals are written in it, and its tree stays as it is
but for these literals. -/
theorem editing_ok (hedit : edit.Spells) (hparse : parseText source = .ok program)
    (hsources : ∀ name ∈ program.statements.filterMap Stmt.imported?,
      ∃ name', edit.change (.string name) = .string name') :
    ∃ output program', transformerOf (editing edit) source = .ok output ∧
      parseText output = .ok program' ∧
      List.Forall₂ (Stmt.Like edit.change) program.statements program'.statements := by
  obtain ⟨lexemes, last, hspelled⟩ := exists_spelledBy hparse
  obtain ⟨output, program', houtput, hspelled', hlike⟩ := hspelled.edited hedit hsources
  exact ⟨output, _, houtput, hspelled'.parseText, hlike⟩

end Transform

section Strings

variable {table : List (String × String)} {source : String} {program : Program}

/-- What a table makes of a string. -/
def replaced (table : List (String × String)) (value : String) : String :=
  (replacementFor table value).getD value

/-- Of two replacements for a string the later one counts. -/
theorem replaced_concat (table : List (String × String)) (value replacement other : String) :
    replaced (table ++ [(value, replacement)]) other =
      if value = other then replacement else replaced table other := by
  unfold replaced replacementFor
  rw [List.reverse_concat, List.find?_cons]
  by_cases h : value = other
  · rw [if_pos h, h, beq_self_eq_true]
    rfl
  · rw [if_neg h, beq_false_of_ne h]

theorem replaced_of_not_mem {value : String} (h : ∀ pair ∈ table, pair.1 ≠ value) :
    replaced table value = value := by
  induction table using List.reverseRecOn with
  | nil => rfl
  | append_singleton table pair ih =>
    rw [replaced_concat, if_neg (h pair (List.mem_append_right table List.mem_cons_self))]
    exact ih fun other hother => h other (List.mem_append_left [pair] hother)

theorem change_string (table : List (String × String)) (value : String) :
    (stringEdit table).change (.string value) = .string (replaced table value) := by
  unfold LiteralEdit.change replaced
  dsimp only [stringEdit]
  cases replacementFor table value <;> rfl

theorem replaceStrings_ok (table : List (String × String))
    (hparse : parseText source = .ok program) :
    ∃ output program', replaceStrings table source = .ok output ∧
      parseText output = .ok program' ∧
      List.Forall₂ (Stmt.Like (stringEdit table).change) program.statements program'.statements := by
  rw [replaceStrings_eq]
  exact editing_ok (quotes_stringEdit table).spells hparse fun name _ => ⟨_, change_string table name⟩

theorem replaceStrings_error {cause : ParseError} (h : parseText source = .error cause) :
    replaceStrings table source = .error (.error (.invalidInput cause)) := by
  unfold replaceStrings transformerOf revise
  rw [h]

theorem stringEdit_nil (value : Literal) : stringEdit [] value = none := by
  cases value <;> rfl

theorem replaceStrings_nil {output : String} (h : replaceStrings [] source = .ok output) :
    output = source := by
  cases hparse : parseText source with
  | error cause =>
    rw [replaceStrings_error hparse] at h
    cases h
  | ok program =>
    obtain ⟨lexemes, last, hfit, hspell, hstatements, _⟩ := parseText_iff.mp hparse
    have hedited : ∀ lexeme, edited (stringEdit []) lexeme = lexeme := by
      intro lexeme
      apply edited_unwritten
      cases lexeme.kind.literal? with
      | none => rfl
      | some value => exact stringEdit_nil value
    rw [replaceStrings_eq, transform_editing _ hparse hfit hspell hstatements,
      List.map_id'' hedited, ← hspell, String.ofList_toList, checkOutput, if_pos rfl] at h
    exact (Except.ok.inj h).symm

end Strings

end Interpose.Edit
