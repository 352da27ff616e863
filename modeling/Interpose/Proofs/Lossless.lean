import Interpose.Proofs.Places
import Interpose.Proofs.Replacement

set_option autoImplicit false

namespace Interpose.Script
open Edit

section Gaps

variable {gap rest : List Char}

theorem LastTrivia.blank {c : Char} (hblank : Text.isBlank c = true) (h : LastTrivia gap) :
    LastTrivia (c :: gap) := by
  rcases h with htrivia | ⟨front, line, hfront, hline, rfl⟩
  · exact .inl (.blank hblank htrivia)
  · exact .inr ⟨c :: front, line, .blank hblank hfront, hline, rfl⟩

theorem LastTrivia.comment {line : List Char} (hline : '\n' ∉ line) (h : LastTrivia gap) :
    LastTrivia ('/' :: '/' :: (line ++ '\n' :: gap)) := by
  rcases h with htrivia | ⟨front, last, hfront, hlast, rfl⟩
  · exact .inl (.comment hline htrivia)
  · exact .inr ⟨'/' :: '/' :: (line ++ '\n' :: front), last, .comment hline hfront, hlast, by simp⟩

theorem skipTrivia_comment {p : Position} (h : (skipTrivia true (gap ++ rest) p).rest = rest) :
    (∃ line behind q, gap = line ++ '\n' :: behind ∧ '\n' ∉ line ∧
      (skipTrivia false (behind ++ rest) q).rest = rest) ∨ rest = [] ∧ '\n' ∉ gap := by
  induction gap generalizing p with
  | nil =>
    cases rest with
    | nil => exact .inr ⟨rfl, List.not_mem_nil⟩
    | cons c rest =>
      rw [List.nil_append, skipTrivia, if_pos rfl] at h
      exact absurd h (skipTrivia_ne _ _ _ (Nat.le_refl _))
  | cons c gap ih =>
    rw [List.cons_append, skipTrivia, if_pos rfl] at h
    by_cases hline : c = '\n'
    · subst hline
      exact .inl ⟨[], gap, _, rfl, List.not_mem_nil, h⟩
    · rw [bne_iff_ne.mpr hline] at h
      rcases ih h with ⟨line, behind, q, rfl, hmem, hskip⟩ | ⟨hrest, hmem⟩
      · exact .inl ⟨c :: line, behind, q, rfl, by simp [Ne.symm hline, hmem], hskip⟩
      · exact .inr ⟨hrest, by simp [Ne.symm hline, hmem]⟩

theorem trivia_of_skip (length : Nat) {p : Position} (hlength : gap.length ≤ length)
    (h : (skipTrivia false (gap ++ rest) p).rest = rest) :
    Trivia gap ∨ rest = [] ∧ LastTrivia gap := by
  -- by induction on the length of what is skipped: behind a comment less of it is left
  induction length generalizing gap p with
  | zero =>
    obtain rfl : gap = [] := List.length_eq_zero_iff.mp (Nat.le_zero.mp hlength)
    exact .inl .nothing
  | succ length ih =>
    rcases gap with _ | ⟨c, gap⟩
    · exact .inl .nothing
    rw [List.length_cons] at hlength
    rw [List.cons_append, skipTrivia, if_neg Bool.false_ne_true] at h
    split at h
    next hblank =>
      rcases ih (by omega) h with htrivia | ⟨hrest, hlast⟩
      · exact .inl (.blank hblank htrivia)
      · exact .inr ⟨hrest, hlast.blank hblank⟩
    next =>
      split at h
      next hslashes =>
        obtain ⟨rfl, hsecond⟩ := hslashes
        rcases skipTrivia_comment h with ⟨_ | ⟨c, line⟩, behind, q, rfl, hline, hskip⟩ | ⟨rfl, hline⟩
        · cases hsecond
        · obtain rfl : c = '/' := Option.some.inj hsecond
          rw [List.mem_cons, not_or] at hline
          simp only [List.length_append, List.length_cons] at hlength
          rcases ih (by omega) hskip with htrivia | ⟨hrest, hlast⟩
          · exact .inl (.comment hline.2 htrivia)
          · exact .inr ⟨hrest, hlast.comment hline.2⟩
        · rw [List.append_nil] at hsecond
          obtain ⟨line, rfl⟩ := List.head?_eq_some_iff.mp hsecond
          rw [List.mem_cons, not_or] at hline
          exact .inr ⟨rfl, .inr ⟨[], line, .nothing, hline.2, rfl⟩⟩
      next =>
        have hall := congrArg List.length h
        simp only [List.length_cons, List.length_append] at hall
        omega

theorem trivia_of_isGap (h : IsGap gap rest) : Trivia gap ∨ rest = [] ∧ LastTrivia gap :=
  trivia_of_skip gap.length (Nat.le_refl _) (congrArg Cursor.rest (h .start))

end Gaps

section Tokens

variable {kind : TokenKind} {text rest : List Char}

/-- The text is one token of the kind, with nothing before and behind it. -/
def IsToken (text : String) (kind : TokenKind) : Prop :=
  ∃ stop, tokenize text = .ok [⟨kind, ⟨.start, stop⟩⟩, endMark stop]

theorem Reads.isGap_nil (h : Reads kind text rest) (behind : List Char) : IsGap [] (text ++ behind) := by
  obtain ⟨c, body, rfl, hblank, hslash⟩ := h.isBlank_head
  exact Trivia.nothing.isGap hblank hslash

theorem Reads.isToken (h : Reads kind text rest) : IsToken (.ofList text) kind := by
  have hnothing : StopsAt isWordPart [] := fun _ h => nomatch h
  have hspell : (String.ofList text).toList = spell [⟨[], text, kind⟩] [] := by simp [spell]
  have hfit : Fit [⟨[], text, kind⟩] [] :=
    .token (h.isGap_nil []) (h.before_stop hnothing).spells (.done (LastTrivia.isGap (.inl .nothing)))
  refine ⟨Position.start.advance text, tokenize_iff.mpr ⟨_, _, hfit, hspell, ?_⟩⟩
  rw [String.toList_ofList]
  rfl

/-- Nothing but blanks and comments stands before the tokens, between them and behind them. -/
def ApartByTrivia (source : String) : Nat → List Token → Prop
  | first, [] => LastTrivia (between source first source.utf8ByteSize).toList
  | first, token :: behind =>
    Trivia (between source first token.start.offset).toList ∧
      ApartByTrivia source token.stop.offset behind

def Span.textIn (source : String) (span : Span) : String :=
  between source span.start.offset span.stop.offset

/-- Each token stands on the text of its lexeme, behind the gap of it. -/
theorem Fit.tiles {lexemes : List Lexeme} {last : List Char} (hfit : Fit lexemes last)
    {source : String} {front : List Char} (hsource : source.toList = front ++ spell lexemes last) :
    ApartByTrivia source (Position.start.advance front).offset
        (tokensOf (.advance .start front) lexemes) ∧
      ∀ token ∈ tokensOf (.advance .start front) lexemes,
        ∃ rest, Reads token.kind (token.span.textIn source).toList rest := by
  induction hfit generalizing front with
  | @done last hgap =>
    refine ⟨?_, fun token htoken => absurd htoken List.not_mem_nil⟩
    change source.toList = front ++ last at hsource
    have hsize : source.utf8ByteSize = (Position.start.advance (front ++ last)).offset := by
      rw [← hsource, Position.offset_advance_toList]
    rw [← List.append_nil last] at hsource
    rw [tokensOf, ApartByTrivia, hsize, between_chars hsource, String.toList_ofList]
    exact (trivia_of_isGap hgap).elim .inl And.right
  | @token lexeme rest last hgap hspells hbehind ih =>
    rw [spell] at hsource
    have htext : source.toList = (front ++ lexeme.gap) ++ (lexeme.text ++ spell rest last) := by
      simp [hsource]
    have hrest : source.toList = (front ++ lexeme.gap ++ lexeme.text) ++ spell rest last := by
      simp [hsource]
    have hreads := reads_of_spells hspells
    have htrivia : Trivia lexeme.gap := by
      refine (trivia_of_isGap hgap).resolve_right fun h => ?_
      have hlong := hspells.length_pos
      rw [List.append_eq_nil_iff] at h
      simp [h.1.1] at hlong
    obtain ⟨hapart, halone⟩ := ih hrest
    rw [tokensOf, ← Position.advance_append, ← Position.advance_append]
    refine ⟨⟨?_, hapart⟩, List.forall_mem_cons.mpr ⟨⟨spell rest last, ?_⟩, halone⟩⟩
    · dsimp only [Token.start]
      rwa [between_chars hsource, String.toList_ofList]
    · dsimp only [Span.textIn]
      rwa [between_chars htext, String.toList_ofList]

/-- Tokens stand one behind the other on texts that are these tokens alone, with nothing but blanks
and comments around them, and the end mark is at the end of the text. Lines, columns and offsets are
exact in tokens and errors, also in calls that go on after an error. -/
theorem tokenize_lossless (source : String) :
    (∀ tokens, tokenize source = .ok tokens → ∃ row stop, tokens = row ++ [endMark stop] ∧
      stop.offset = source.utf8ByteSize ∧
      InOrder 0 row source.utf8ByteSize ∧
      ApartByTrivia source 0 row ∧
      ∀ token ∈ row, String.Pos.Raw.IsValid source ⟨token.start.offset⟩ ∧
        String.Pos.Raw.IsValid source ⟨token.stop.offset⟩ ∧
        IsToken (token.span.textIn source) token.kind) ∧
    ∀ calls, ∀ p ∈ placesOf ((Cursor.ofText source).answer calls), p.IsIn source := by
  refine ⟨fun tokens htokens => ?_, answer_places (Cursor.isIn_ofText source)⟩
  have hplaces := isIn_of_tokenize htokens
  obtain ⟨lexemes, last, hfit, hspell, rfl⟩ := tokenize_iff.mp htokens
  have horder := hfit.inOrder .start
  rw [← hspell, Position.offset_advance_toList] at horder
  have hsource : source.toList = [] ++ spell lexemes last := hspell
  obtain ⟨hapart, hreads⟩ := hfit.tiles hsource
  refine ⟨_, _, rfl, Position.offset_advance_toList source, horder, hapart, fun token htoken => ?_⟩
  obtain ⟨hstart, hstop⟩ := hplaces token (List.mem_append_left _ htoken)
  obtain ⟨rest, hread⟩ := hreads token htoken
  have halone := hread.isToken
  rw [String.ofList_toList] at halone
  exact ⟨hstart.isValid, hstop.isValid, halone⟩

def crampedSource : String := "é=-7//é\n\"\\\"ü\";.//"

def faultySource : String := "é~\"ü\n.=\t1"

theorem tokenize_lossless_cramped : ∃ tokens row stop, tokenize crampedSource = .ok tokens ∧
    tokens = row ++ [endMark stop] ∧ InOrder 0 row crampedSource.utf8ByteSize ∧
    kinds row = [.identifier "é", .equal, .integer (-7), .string "\"ü", .semicolon, .dot] ∧
    ApartByTrivia crampedSource 0 row ∧
    (∀ token ∈ row, IsToken (token.span.textIn crampedSource) token.kind) ∧
    (Cursor.ofText faultySource).answer 0 = .error ⟨.unexpectedCharacter '~', ⟨1, 2, 2⟩⟩ ∧
    (Cursor.ofText faultySource).answer 1 = .error ⟨.unterminatedString, ⟨1, 3, 3⟩⟩ ∧
    (Position.mk 1 3 3).IsIn faultySource ∧
    ∀ p ∈ placesOf ((Cursor.ofText faultySource).answer 2), p.IsIn faultySource := by
  have hcalls := (tokenize_lossless faultySource).2
  have hkinds : (tokenize crampedSource).toOption.map kinds = some ([.identifier "é", .equal,
      .integer (-7), .string "\"ü", .semicolon, .dot] ++ [.endOfInput]) := by decide +kernel
  have hsecond : (Cursor.ofText faultySource).answer 1 = .error ⟨.unterminatedString, ⟨1, 3, 3⟩⟩ := by
    decide +kernel
  rcases htokens : tokenize crampedSource with error | tokens
  all_goals rw [htokens] at hkinds
  · cases hkinds
  obtain ⟨row, stop, rfl, _, horder, hapart, htexts⟩ := (tokenize_lossless crampedSource).1 tokens htokens
  have hrow : kinds (row ++ [endMark stop]) = _ := Option.some.inj hkinds
  rw [kinds, List.map_append] at hrow
  exact ⟨_, row, stop, rfl, rfl, horder, (List.append_inj' hrow rfl).1, hapart,
    fun token htoken => (htexts token htoken).2.2, by decide +kernel, hsecond,
    hcalls 1 ⟨1, 3, 3⟩ (hsecond ▸ List.mem_singleton_self _), hcalls 2⟩

end Tokens

end Interpose.Script
