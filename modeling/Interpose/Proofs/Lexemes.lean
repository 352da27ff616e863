import Interpose.Script.Lexer

/-!
How a text falls into tokens: blanks and comments, a lexeme, blanks and comments, and so on to the
end. Main statement: a text has tokens where it is spelled out by lexemes that fit one behind the
other, and only there; the tokens are those of the lexemes (`tokenize_iff`).
-/

set_option autoImplicit false

namespace Interpose.Script

/-- The characters of a token, with the blanks and comments before it. -/
structure Lexeme where
  gap : List Char
  text : List Char
  kind : TokenKind

def IsGap (gap rest : List Char) : Prop :=
  ∀ p, skipTrivia false (gap ++ rest) p = ⟨rest, p.advance gap⟩

/-- With the rest behind it, the text is read as one token of this kind. -/
inductive Spells (kind : TokenKind) : List Char → List Char → Prop where
  | read {first : Char} {body rest : List Char}
      (lexeme : ∀ p, lexeme first (body ++ rest) p =
        (.ok kind, ⟨rest, (p.next first).advance body⟩)) : Spells kind (first :: body) rest

theorem Spells.length_pos {kind : TokenKind} {text rest : List Char} (h : Spells kind text rest) :
    0 < text.length := by
  cases h with
  | read _ => exact Nat.succ_pos _

def spell : List Lexeme → List Char → List Char
  | [], last => last
  | lexeme :: rest, last => lexeme.gap ++ (lexeme.text ++ spell rest last)

/-- The tokens of lexemes that begin at a place. -/
def tokensOf : Position → List Lexeme → List Token
  | _, [] => []
  | p, lexeme :: rest =>
    let start := p.advance lexeme.gap
    let stop := start.advance lexeme.text
    ⟨lexeme.kind, ⟨start, stop⟩⟩ :: tokensOf stop rest

def endMark (p : Position) : Token := ⟨.endOfInput, ⟨p, p⟩⟩

/-- Each lexeme is read as such with those that follow behind it. -/
inductive Fit : List Lexeme → List Char → Prop where
  | done {last : List Char} (gap : IsGap last []) : Fit [] last
  | token {lexeme : Lexeme} {rest : List Lexeme} {last : List Char}
      (gap : IsGap lexeme.gap (lexeme.text ++ spell rest last))
      (spells : Spells lexeme.kind lexeme.text (spell rest last)) (behind : Fit rest last) :
      Fit (lexeme :: rest) last

section Split

theorem skipTrivia_split (inComment : Bool) (cs : List Char) :
    ∃ gap rest, cs = gap ++ rest ∧ ∀ p, skipTrivia inComment cs p = ⟨rest, p.advance gap⟩ := by
  induction cs generalizing inComment with
  | nil => exact ⟨[], [], rfl, fun _ => by rw [skipTrivia]; rfl⟩
  | cons c cs ih =>
    have behind : ∀ inComment, ∃ gap rest, c :: cs = gap ++ rest ∧
        ∀ p : Position, skipTrivia inComment cs (p.next c) = ⟨rest, p.advance gap⟩ := by
      intro inComment
      obtain ⟨gap, rest, rfl, hskip⟩ := ih inComment
      exact ⟨c :: gap, rest, rfl, fun p => hskip (p.next c)⟩
    unfold skipTrivia
    split
    · exact behind _
    split
    · exact behind _
    split
    · exact behind _
    · exact ⟨[], c :: cs, rfl, fun _ => rfl⟩

theorem stringBody_split (cs : List Char) : ∃ result body rest, cs = body ++ rest ∧
    ∀ p, stringBody cs p = (result, ⟨rest, p.advance body⟩) := by
  -- the induction goes along with any position; what is shown does not depend on it
  induction cs, Position.start using stringBody.induct with
  | case1 => exact ⟨_, [], [], rfl, fun p => by rw [stringBody]; rfl⟩
  | case2 rest => exact ⟨.ok [], ['"'], rest, rfl, fun p => by rw [stringBody.eq_def]; rfl⟩
  | case3 rest => exact ⟨_, ['\n'], rest, rfl, fun p => by rw [stringBody.eq_def]; rfl⟩
  | case4 => exact ⟨_, ['\\'], [], rfl, fun p => by rw [stringBody.eq_def]; rfl⟩
  | case5 _ e rest hescape =>
    refine ⟨.error (.unknownEscape e), ['\\', e], rest, rfl, fun p => ?_⟩
    rw [stringBody.eq_def]
    simp [hescape]
  | case6 _ e rest value hescape _ _ _ _ _ _ ih =>
    obtain ⟨result, body, rest', hrest, hbody⟩ := ih
    refine ⟨result.map (value :: ·), '\\' :: e :: body, rest', by rw [hrest]; rfl, fun p => ?_⟩
    rw [stringBody.eq_def]
    simp [hescape, hbody]
  | case7 c rest _ hquote hline hescape _ _ _ ih =>
    obtain ⟨result, body, rest', hrest, hbody⟩ := ih
    refine ⟨result.map (c :: ·), c :: body, rest', by rw [hrest]; rfl, fun p => ?_⟩
    rw [stringBody.eq_def]
    simp [hquote, hline, hescape, hbody]

theorem lexeme_split (first : Char) (cs : List Char) : ∃ result body rest, cs = body ++ rest ∧
    ∀ p, lexeme first cs p = (result, ⟨rest, (p.next first).advance body⟩) := by
  have single : ∀ result : Except LexFault TokenKind, ∃ result' body rest, cs = body ++ rest ∧
      ∀ p : Position, (result, Cursor.mk cs (p.next first)) =
        (result', ⟨rest, (p.next first).advance body⟩) :=
    fun result => ⟨result, [], cs, rfl, fun _ => rfl⟩
  unfold lexeme
  dsimp only
  split
  · exact single _
  split
  · exact single _
  split
  · exact single _
  split
  · obtain ⟨result, body, rest, rfl, hbody⟩ := stringBody_split cs
    exact ⟨result.map fun value => .string (.ofList value), body, rest, rfl, fun p => by
      simp only [hbody]⟩
  split
  · exact ⟨integerKind first (cs.takeWhile Text.isDigit), _, _,
      List.takeWhile_append_dropWhile.symm, fun _ => rfl⟩
  split
  · exact ⟨.ok (.ofWord (.ofList (first :: cs.takeWhile isWordPart))), _, _,
      List.takeWhile_append_dropWhile.symm, fun _ => rfl⟩
  · exact single _

theorem ofWord_ne_end (word : String) : TokenKind.ofWord word ≠ .endOfInput := by
  unfold TokenKind.ofWord
  repeat' split
  all_goals simp

theorem lexeme_ne_end (first : Char) (cs : List Char) (p : Position) :
    (lexeme first cs p).1 ≠ .ok .endOfInput := by
  unfold lexeme
  dsimp only
  split
  · simp
  split
  · simp
  split
  · simp
  split
  · cases (stringBody cs (p.next first)).1 <;> simp [Except.map]
  split
  · unfold digitsBody integerKind
    dsimp only
    split <;> simp
  split
  · simpa using ofWord_ne_end _
  · simp

theorem Spells.ne_end {kind : TokenKind} {text rest : List Char} (h : Spells kind text rest) :
    kind ≠ .endOfInput := by
  cases h with
  | @read first body rest lexeme =>
    rintro rfl
    exact lexeme_ne_end first (body ++ rest) .start (congrArg Prod.fst (lexeme .start))

theorem Fit.ne_end {lexemes : List Lexeme} {last : List Char} (h : Fit lexemes last)
    (p : Position) : ∀ token ∈ tokensOf p lexemes, token.kind ≠ .endOfInput := by
  induction h generalizing p with
  | done gap => exact fun _ h => absurd h List.not_mem_nil
  | token gap spells behind ih =>
    intro token htoken
    rcases List.mem_cons.mp htoken with rfl | htoken
    · exact spells.ne_end
    · exact ih _ token htoken

end Split

section Scan

theorem tokenize_apply (cursor : Cursor) : cursor.tokenize =
    match cursor.scan with
    | (.ok none, after) => (.ok [⟨.endOfInput, ⟨after.position, after.position⟩⟩], after)
    | (.error error, after) => (.error error, after)
    | (.ok (some token), after) => (after.tokenize.1.map (token :: ·), after.tokenize.2) := by
  rw [Cursor.tokenize]
  split <;> rename_i hscan <;> rw [hscan]

theorem scan_done {last : List Char} (h : IsGap last []) (p : Position) :
    (⟨last, p⟩ : Cursor).scan = (.ok none, ⟨[], p.advance last⟩) := by
  have hskip := h p
  rw [List.append_nil] at hskip
  simp only [Cursor.scan, hskip]

theorem scan_token {gap text rest : List Char} {kind : TokenKind} (hgap : IsGap gap (text ++ rest))
    (htext : Spells kind text rest) (p : Position) :
    (⟨gap ++ (text ++ rest), p⟩ : Cursor).scan =
      (.ok (some ⟨kind, ⟨p.advance gap, (p.advance gap).advance text⟩⟩),
        ⟨rest, (p.advance gap).advance text⟩) := by
  have hskip := hgap p
  cases htext with
  | read lexeme =>
    rw [List.cons_append] at hskip
    simp only [Cursor.scan, List.cons_append, hskip, lexeme, Position.advance_cons]

theorem scan_cases (cs : List Char) : IsGap cs [] ∨
    (∃ (lexeme : Lexeme) (rest : List Char), cs = lexeme.gap ++ (lexeme.text ++ rest) ∧
      IsGap lexeme.gap (lexeme.text ++ rest) ∧ Spells lexeme.kind lexeme.text rest) ∨
    ∀ p, ∃ error after, (⟨cs, p⟩ : Cursor).scan = (.error error, after) := by
  obtain ⟨gap, behind, rfl, hskip⟩ := skipTrivia_split false cs
  cases behind with
  | nil =>
    rw [List.append_nil] at hskip ⊢
    exact .inl fun p => by rw [List.append_nil, hskip]
  | cons first behind =>
    obtain ⟨result, body, rest, rfl, hlexeme⟩ := lexeme_split first behind
    cases result with
    | ok kind => exact .inr (.inl ⟨⟨gap, first :: body, kind⟩, rest, rfl, hskip, .read hlexeme⟩)
    | error fault =>
      refine .inr (.inr fun p => ?_)
      simp only [Cursor.scan, hskip, hlexeme]
      exact ⟨_, _, rfl⟩

theorem Fit.tokenize {lexemes : List Lexeme} {last : List Char} (h : Fit lexemes last)
    (p : Position) :
    (⟨spell lexemes last, p⟩ : Cursor).tokenize.1 =
      .ok (tokensOf p lexemes ++ [endMark (p.advance (spell lexemes last))]) := by
  induction h generalizing p with
  | done gap =>
    rw [spell, tokenize_apply, scan_done gap]
    rfl
  | token gap spells behind ih =>
    rw [spell, tokenize_apply, scan_token gap spells, Position.advance_append,
      Position.advance_append]
    dsimp only
    rw [ih, tokensOf]
    rfl

theorem exists_fit (length : Nat) {cs : List Char} {p : Position} {tokens : List Token}
    (hlength : cs.length ≤ length) (h : (⟨cs, p⟩ : Cursor).tokenize.1 = .ok tokens) :
    ∃ lexemes last, Fit lexemes last ∧ cs = spell lexemes last := by
  -- by induction on the length of the text: a token leaves less of it behind
  induction length generalizing cs p tokens with
  | zero =>
    obtain rfl : cs = [] := List.length_eq_zero_iff.mp (Nat.le_zero.mp hlength)
    exact ⟨[], [], .done fun _ => by rw [List.append_nil, skipTrivia]; rfl, rfl⟩
  | succ length ih =>
    rcases scan_cases cs with hgap | ⟨lexeme, rest, rfl, hgap, hspells⟩ | herror
    · exact ⟨[], cs, .done hgap, rfl⟩
    · rw [tokenize_apply, scan_token hgap hspells] at h
      have hshort : rest.length ≤ length := by
        have hlong := hspells.length_pos
        simp only [List.length_append] at hlength
        omega
      cases hrest : (⟨rest, (p.advance lexeme.gap).advance lexeme.text⟩ : Cursor).tokenize.1 with
      | error error =>
        dsimp only at h
        rw [hrest] at h
        cases h
      | ok behind =>
        obtain ⟨lexemes, last, hfit, rfl⟩ := ih hshort hrest
        exact ⟨lexeme :: lexemes, last, .token hgap hspells hfit, rfl⟩
    · obtain ⟨error, after, hscan⟩ := herror p
      rw [tokenize_apply, hscan] at h
      cases h

/-- A text has tokens where it is spelled out by lexemes that fit, and they are those of the lexemes
with an end mark behind them. -/
theorem tokenize_iff {source : String} {tokens : List Token} :
    tokenize source = .ok tokens ↔ ∃ lexemes last, Fit lexemes last ∧
      source.toList = spell lexemes last ∧
      tokens = tokensOf .start lexemes ++ [endMark (Position.start.advance source.toList)] := by
  unfold tokenize Cursor.ofText
  constructor
  · intro h
    obtain ⟨lexemes, last, hfit, hspell⟩ := exists_fit _ (Nat.le_refl _) h
    rw [hspell, hfit.tokenize, ← hspell] at h
    exact ⟨lexemes, last, hfit, hspell, (Except.ok.inj h).symm⟩
  · rintro ⟨lexemes, last, hfit, hspell, rfl⟩
    rw [hspell]
    exact hfit.tokenize _

end Scan

end Interpose.Script
