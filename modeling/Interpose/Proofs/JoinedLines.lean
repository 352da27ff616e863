import Interpose.Proofs.Lossless
import Interpose.Proofs.Relocation

set_option autoImplicit false

namespace Interpose.Script

def Position.below (source : String) (p : Position) : Position :=
  ⟨p.line + (source.toList.count '\n' + 1), p.column, p.offset + (source.utf8ByteSize + 1)⟩

section Below

variable (source : String)

theorem Position.next_below (p : Position) (c : Char) : (p.below source).next c = (p.next c).below source := by
  unfold below next
  split <;> simp only [Position.mk.injEq, true_and] <;> omega

theorem Position.advance_below (p : Position) (cs : List Char) :
    (p.below source).advance cs = (p.advance cs).below source := by
  induction cs generalizing p with
  | nil => rfl
  | cons c cs ih => rw [advance_cons, next_below, ih, advance_cons]

/-- The line feed behind the source ends at the start of what is below it. -/
theorem Position.below_start : (start.advance source.toList).next '\n' = start.below source := by
  rw [next, if_pos rfl, line_advance, offset_advance_toList]
  simp only [below, start, Position.mk.injEq, true_and]
  have hsize : '\n'.utf8Size = 1 := rfl
  omega

theorem Cursor.moved_below (behind : String) : (Cursor.ofText behind).Moved (Position.below source)
    ⟨behind.toList, (Position.start.advance source.toList).next '\n'⟩ := by
  refine ⟨rfl, fun front => ?_⟩
  rw [Position.below_start]
  exact Position.advance_below source .start front

end Below

section Lines

variable {gap rest cs : List Char}

theorem Trivia.append (h : Trivia gap) (hrest : Trivia rest) : Trivia (gap ++ rest) := by
  induction h with
  | nothing => exact hrest
  | blank hblank _ ih => exact .blank hblank ih
  | @comment line behind hline _ ih =>
    have hall : '/' :: '/' :: (line ++ '\n' :: behind) ++ rest =
        '/' :: '/' :: (line ++ '\n' :: (behind ++ rest)) := by simp
    rw [hall]
    exact .comment hline ih

theorem LastTrivia.line (h : LastTrivia gap) : Trivia (gap ++ ['\n']) := by
  rcases h with htrivia | ⟨front, line, hfront, hline, rfl⟩
  · exact htrivia.append (.blank (by decide) .nothing)
  · have hcomment := Trivia.comment hline .nothing
    simpa using hfront.append hcomment

theorem IsGap.scan_line (h : IsGap gap []) (cs : List Char) (p : Position) :
    (⟨gap ++ '\n' :: cs, p⟩ : Cursor).scan = (⟨cs, (p.advance gap).next '\n'⟩ : Cursor).scan := by
  have hlast : LastTrivia gap := (trivia_of_isGap h).elim .inl And.right
  have hskip : skipTrivia false (gap ++ ['\n'] ++ cs) p =
      skipTrivia false cs (p.advance (gap ++ ['\n'])) := hlast.line.skip p
  rw [List.append_assoc, List.singleton_append, Position.advance_append] at hskip
  unfold Cursor.scan
  rw [hskip]
  rfl

theorem Reads.line {kind : TokenKind} {text : List Char} (h : Reads kind text rest) (cs : List Char) :
    Reads kind text (rest ++ '\n' :: cs) := by
  cases rest with
  | nil =>
    refine h.before_stop ?_
    rintro c ⟨⟩
    decide +kernel
  | cons c rest => exact h.before rfl

/-- Behind a line feed a text is read from there, whatever is before. -/
theorem Fit.tokenize_line {lexemes : List Lexeme} {last : List Char} (h : Fit lexemes last)
    (cs : List Char) (p : Position) :
    (⟨spell lexemes last ++ '\n' :: cs, p⟩ : Cursor).tokenize.1 =
      (⟨cs, (p.advance (spell lexemes last)).next '\n'⟩ : Cursor).tokenize.1.map
        (tokensOf p lexemes ++ ·) := by
  induction h generalizing p with
  | @done last hgap =>
    rw [spell, tokenize_apply, hgap.scan_line, ← tokenize_apply, tokensOf]
    exact (congrFun Except.map_id _).symm
  | @token lexeme rest last hgap hspells hbehind ih =>
    have hreads := (reads_of_spells hspells).line cs
    obtain ⟨c, body, htext, hblank, hslash⟩ := hreads.isBlank_head
    have hgap' : IsGap lexeme.gap (lexeme.text ++ (spell rest last ++ '\n' :: cs)) := by
      rw [htext] at hgap ⊢
      exact hgap.before hslash hslash hblank _
    have hall : spell (lexeme :: rest) last ++ '\n' :: cs =
        lexeme.gap ++ (lexeme.text ++ (spell rest last ++ '\n' :: cs)) := by
      simp [spell]
    rw [hall, tokenize_apply, scan_token hgap' hreads.spells]
    dsimp only
    rw [ih, spell, Position.advance_append, Position.advance_append, tokensOf]
    rcases Cursor.tokenize _ with ⟨error | tokens, after⟩ <;> rfl

end Lines

section Programs

variable {move : Position → Position} {source behind : String} {program : Program}

theorem hasEnd_of_tokenize {tokens : List Token} (h : tokenize source = .ok tokens) : HasEnd tokens := by
  obtain ⟨lexemes, last, _, _, rfl⟩ := tokenize_iff.mp h
  exact ⟨endMark _, List.mem_append_right _ (List.mem_singleton_self _), rfl⟩

/-- The statements of both, those of the second one moved, up to where that one ends then. -/
def Program.followedBy (move : Position → Position) (program more : Program) : Program :=
  ⟨program.statements ++ more.statements.map (Stmt.moved move), ⟨.start, move more.span.stop⟩⟩

theorem StatementsFrom.parse_append {taken tokens : List Token}
    (h : StatementsFrom taken program.statements) (htokens : HasEnd tokens) :
    parse (taken ++ tokens.map (Token.moved move)) =
      ((parse tokens).map (program.followedBy move)).mapError (ParseError.moved move) := by
  obtain ⟨hmoved, hrest⟩ := relocates_statements tokens htokens
  dsimp only at hmoved hrest
  unfold parse parseProgram
  rw [h.statements_append, hmoved]
  rcases hread : statements tokens with ⟨error | stmts, _ | ⟨last, rest⟩⟩ <;> rw [hread] at hrest
  · exact absurd hrest not_hasEnd_nil
  · rfl
  · exact absurd hrest not_hasEnd_nil
  · rfl

theorem parseText_below (h : parseText source = .ok program) (behind : String) :
    parseText (source ++ "\n" ++ behind) =
      ((parseText behind).map (program.followedBy (.below source))).mapError
        (ParseError.moved (.below source)) := by
  obtain ⟨lexemes, last, hfit, hspell, hstatements, _⟩ := parseText_iff.mp h
  have htokens : tokenize (source ++ "\n" ++ behind) =
      ((tokenize behind).map fun tokens => tokensOf .start lexemes ++
        tokens.map (Token.moved (.below source))).mapError (LexError.moved (.below source)) := by
    have hbelow := tokenize_moved (Cursor.moved_below source behind)
    have hall : (source ++ "\n" ++ behind).toList = spell lexemes last ++ '\n' :: behind.toList := by
      simp [hspell]
    unfold tokenize
    rw [Cursor.ofText, hall, hfit.tokenize_line, ← hspell, hbelow]
    cases (Cursor.ofText behind).tokenize.1 <;> rfl
  unfold parseText
  rw [htokens]
  cases hbehind : tokenize behind with
  | error error => rfl
  | ok tokens => exact hstatements.parse_append (hasEnd_of_tokenize hbehind)

/-- Below a program, a text is parsed as if it stood alone, but for its places: its statements follow
those of the program, or its error is that of both. -/
theorem parse_line_by_line (h : parseText source = .ok program) (behind : String) :
    (∀ more, parseText behind = .ok more → parseText (source ++ "\n" ++ behind) =
      .ok (program.followedBy (Position.below source) more)) ∧
    ∀ error, parseText behind = .error error →
      parseText (source ++ "\n" ++ behind) = .error (error.moved (Position.below source)) := by
  have hboth := parseText_below h behind
  constructor
  · intro more hmore
    rw [hboth, hmore]
    rfl
  · intro error herror
    rw [hboth, herror]
    rfl

theorem Stmt.map_span_moved (stmts : List Stmt) : (stmts.map (Stmt.moved move)).map Stmt.span =
    (stmts.map Stmt.span).map (Span.moved move) := by
  rw [List.map_map, List.map_map]
  exact List.map_congr_left fun stmt _ => by cases stmt <;> rfl

def commentedSource : String := "let é\n= 1; // é"

theorem parse_line_by_line_commented : ∃ program more, parseText commentedSource = .ok program ∧
    parseText "export x = é.y;" = .ok more ∧
    parseText (commentedSource ++ "\n" ++ "export x = é.y;") =
      .ok (program.followedBy (Position.below commentedSource) more) ∧
    (program.followedBy (Position.below commentedSource) more).statements.map Stmt.span =
      [⟨⟨1, 1, 0⟩, ⟨2, 5, 11⟩⟩, ⟨⟨3, 1, 18⟩, ⟨3, 16, 34⟩⟩] ∧
    parseText (commentedSource ++ "\n" ++ "let é ;") =
      .error (.unexpectedToken .equal .semicolon ⟨3, 7, 25⟩) ∧
    parseText (commentedSource ++ "\n" ++ "é~") =
      .error (.lexical ⟨.unexpectedCharacter '~', ⟨3, 2, 20⟩⟩) := by
  have hspans : (parseText commentedSource).toOption.map (fun program => program.statements.map Stmt.span) =
      some [⟨⟨1, 1, 0⟩, ⟨2, 5, 11⟩⟩] := by decide +kernel
  have hspans' : (parseText "export x = é.y;").toOption.map (fun more => more.statements.map Stmt.span) =
      some [⟨⟨1, 1, 0⟩, ⟨1, 16, 16⟩⟩] := by decide +kernel
  rcases hprogram : parseText commentedSource with cause | program <;> rw [hprogram] at hspans
  · cases hspans
  rcases hmore : parseText "export x = é.y;" with cause | more <;> rw [hmore] at hspans'
  · cases hspans'
  have hmissing : parseText "let é ;" = .error (.unexpectedToken .equal .semicolon ⟨1, 7, 7⟩) := by
    decide +kernel
  have hunread : parseText "é~" = .error (.lexical ⟨.unexpectedCharacter '~', ⟨1, 2, 2⟩⟩) := by
    decide +kernel
  have hfirst : program.statements.map Stmt.span = _ := Option.some.inj hspans
  have hbehind : more.statements.map Stmt.span = _ := Option.some.inj hspans'
  refine ⟨program, more, rfl, rfl, (parse_line_by_line hprogram _).1 more hmore, ?_,
    (parse_line_by_line hprogram _).2 _ hmissing, (parse_line_by_line hprogram _).2 _ hunread⟩
  rw [Program.followedBy, List.map_append, hfirst, Stmt.map_span_moved, hbehind]
  decide +kernel

end Programs

end Interpose.Script
