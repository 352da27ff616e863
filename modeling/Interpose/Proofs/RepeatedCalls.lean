import Mathlib.Dynamics.FixedPoints.Basic
import Interpose.Proofs.Lossless
import Interpose.Proofs.Refusals

set_option autoImplicit false

namespace Interpose.Script

section Calls

variable {σ ε α : Type}

def leftBy (call : σ → Except ε α × σ) (calls : ℕ) (state : σ) : σ :=
  (fun state => (call state).2)^[calls] state

theorem leftBy_succ (call : σ → Except ε α × σ) (calls : ℕ) (state : σ) :
    leftBy call (calls + 1) state = (call (leftBy call calls state)).2 :=
  Function.iterate_succ_apply' _ _ _

/-- The answers are so many errors, then a value, and then one and the same value. -/
structure Settles (answer : ℕ → Except ε α) (errors : ℕ) (first later : α) : Prop where
  fails : ∀ n < errors, ∃ error, answer n = .error error
  succeeds : answer errors = .ok first
  stays : ∀ n > errors, answer n = .ok later

theorem Settles.errors_eq {answer : ℕ → Except ε α} {errors : ℕ} {first later : α}
    (h : Settles answer errors first later) {n : ℕ} (hfails : ∀ i < n, (answer i).isOk = false)
    (hok : (answer n).isOk = true) : errors = n := by
  rcases Nat.lt_trichotomy errors n with hless | heq | hless
  · have hfirst := hfails errors hless
    rw [h.succeeds] at hfirst
    cases hfirst
  · exact heq
  · obtain ⟨error, herror⟩ := h.fails n hless
    rw [herror] at hok
    cases hok

theorem exists_settles {call : σ → Except ε α × σ} (size : σ → ℕ) (last : σ → α)
    (herror : ∀ state error, (call state).1 = .error error → size (call state).2 < size state)
    (hok : ∀ state value, (call state).1 = .ok value →
      call (call state).2 = (.ok (last (call state).2), (call state).2)) (state : σ) :
    ∃ errors ≤ size state, ∃ first, Settles (fun n => (call (leftBy call n state)).1) errors first
      (last (leftBy call (errors + 1) state)) := by
  -- by induction on the size: a call that fails makes it less
  induction hsize : size state using Nat.strong_induction_on generalizing state with
  | h bound ih =>
    rcases hcall : (call state).1 with error | first
    · have hless := herror state error hcall
      obtain ⟨errors, hle, first, hsettles⟩ := ih _ (hsize ▸ hless) (call state).2 rfl
      refine ⟨errors + 1, by omega, first, ?_, hsettles.succeeds, ?_⟩
      · rintro (_ | n) hn
        · exact ⟨error, hcall⟩
        · exact hsettles.fails n (Nat.lt_of_succ_lt_succ hn)
      · rintro (_ | n) hn
        · exact absurd hn (Nat.not_lt_zero _)
        · exact hsettles.stays n (Nat.lt_of_succ_lt_succ hn)
    · have hlast := hok state first hcall
      have hfixed : Function.IsFixedPt (fun state => (call state).2) (call state).2 := by
        change (call (call state).2).2 = (call state).2
        rw [hlast]
      refine ⟨0, Nat.zero_le _, first, fun n hn => absurd hn n.not_lt_zero, hcall, ?_⟩
      rintro (_ | n) hn
      · exact absurd hn (Nat.lt_irrefl 0)
      · have hleft : leftBy call (n + 1) state = (call state).2 := hfixed.iterate n
        rw [hleft, hlast]
        rfl

end Calls

section Texts

/-- Farther in a text, by its offset as well as by its line and column. -/
def Position.Before (p q : Position) : Prop :=
  p.offset < q.offset ∧ (p.line < q.line ∨ p.line = q.line ∧ p.column < q.column)

theorem Position.Before.trans {p q r : Position} (h : p.Before q) (h' : q.Before r) :
    p.Before r := by
  unfold Before at *
  omega

theorem Position.before_next (p : Position) (c : Char) : p.Before (p.next c) := by
  refine ⟨p.offset_lt_next c, ?_⟩
  unfold next
  split
  · exact .inl (Nat.lt_succ_self _)
  · exact .inr ⟨rfl, Nat.lt_succ_self _⟩

theorem Position.before_advance (p : Position) {cs : List Char} (h : cs ≠ []) :
    p.Before (p.advance cs) := by
  induction cs generalizing p with
  | nil => exact absurd rfl h
  | cons c cs ih =>
    rw [advance_cons]
    rcases eq_or_ne cs [] with rfl | hcs
    · exact p.before_next c
    · exact (p.before_next c).trans (ih _ hcs)

namespace Cursor

variable {cursor middle after : Cursor} {taken taken' : List Char}

/-- What is taken was ahead of the cursor and is behind it afterwards. -/
structure Takes (cursor : Cursor) (taken : List Char) (after : Cursor) : Prop where
  rest : cursor.rest = taken ++ after.rest
  position : after.position = cursor.position.advance taken

theorem Takes.trans (h : cursor.Takes taken middle) (h' : middle.Takes taken' after) :
    cursor.Takes (taken ++ taken') after :=
  ⟨by rw [h.rest, h'.rest, List.append_assoc],
    by rw [h'.position, h.position, Position.advance_append]⟩

inductive Answers (cursor : Cursor) : Except LexError (List Token) → Cursor → Prop where
  | ok {tokens : List Token} {after : Cursor} (htaken : cursor.Takes cursor.rest after) :
      Answers cursor (.ok tokens) after
  | error {error : LexError} {gap text : List Char} {after : Cursor}
      (htaken : cursor.Takes (gap ++ text) after) (htext : text ≠ [])
      (hposition : error.position = cursor.position.advance gap) :
      Answers cursor (.error error) after

theorem Takes.all (h : cursor.Takes taken after) (hafter : after.rest = []) :
    cursor.Takes cursor.rest after := by
  have htaken : cursor.rest = taken := by rw [h.rest, hafter, List.append_nil]
  rwa [htaken]

theorem Answers.behind {answer : Except LexError (List Token)} (h : middle.Answers answer after)
    (htaken : cursor.Takes taken middle) (token : Token) :
    cursor.Answers (answer.map (token :: ·)) after := by
  cases h with
  | ok hrest =>
    have hafter : after.rest = [] := List.append_right_eq_self.mp hrest.rest.symm
    exact .ok ((htaken.trans hrest).all hafter)
  | @error error gap text _ herror htext hposition =>
    have hall := htaken.trans herror
    rw [← List.append_assoc] at hall
    refine .error hall htext ?_
    rw [hposition, htaken.position, Position.advance_append]

/-- A step takes a gap and a lexeme. It finds no token at the end only, and no error there. -/
theorem takes_scan (cursor : Cursor) : ∃ gap text, cursor.Takes (gap ++ text) cursor.scan.2 ∧
    (cursor.scan.1 = .ok none → cursor.scan.2.rest = []) ∧
    ∀ error, cursor.scan.1 = .error error →
      text ≠ [] ∧ error.position = cursor.position.advance gap := by
  obtain ⟨cs, p⟩ := cursor
  obtain ⟨gap, text, rest, read, rfl, hscan, hread⟩ := scan_split cs
  rw [hscan]
  refine ⟨gap, text, ⟨(List.append_assoc ..).symm, (Position.advance_append ..).symm⟩, ?_, ?_⟩
  · intro hnone
    rcases hread with ⟨_, hrest⟩ | ⟨hsome, _⟩
    · exact hrest
    · rcases read with fault | _ | kind <;> cases hnone
      exact absurd rfl hsome
  · intro error herror
    rcases hread with ⟨rfl, _⟩ | ⟨_, htext⟩
    · cases herror
    · rcases read with fault | _ | kind <;> cases herror
      exact ⟨htext, rfl⟩

theorem answers_tokenize (cursor : Cursor) : cursor.Answers cursor.tokenize.1 cursor.tokenize.2 := by
  induction cursor using Cursor.tokenize.induct with
  | case1 cursor after hscan =>
    obtain ⟨gap, text, htaken, hend, _⟩ := cursor.takes_scan
    rw [hscan] at htaken hend
    rw [tokenize_apply, hscan]
    exact .ok (htaken.all (hend rfl))
  | case2 cursor error after hscan =>
    obtain ⟨gap, text, htaken, _, herror⟩ := cursor.takes_scan
    rw [hscan] at htaken herror
    obtain ⟨htext, hposition⟩ := herror error rfl
    rw [tokenize_apply, hscan]
    exact .error htaken htext hposition
  | case3 cursor token after hscan _ _ _ ih =>
    obtain ⟨gap, text, htaken, _⟩ := cursor.takes_scan
    rw [hscan] at htaken
    rw [tokenize_apply, hscan]
    exact ih.behind htaken token

theorem answer_eq (cursor : Cursor) (calls : ℕ) :
    cursor.answer calls = (leftBy tokenize calls cursor).tokenize.1 := by
  induction calls generalizing cursor with
  | zero => rfl
  | succ calls ih => exact ih _

theorem Answers.takes {answer : Except LexError (List Token)} (h : cursor.Answers answer after) :
    ∃ taken, cursor.Takes taken after := by
  cases h with
  | ok htaken => exact ⟨_, htaken⟩
  | error htaken => exact ⟨_, htaken⟩

theorem takes_leftBy (cursor : Cursor) (calls : ℕ) :
    ∃ taken, cursor.Takes taken (leftBy tokenize calls cursor) := by
  induction calls generalizing cursor with
  | zero => exact ⟨[], rfl, rfl⟩
  | succ calls ih =>
    obtain ⟨taken, htaken⟩ := cursor.answers_tokenize.takes
    obtain ⟨taken', htaken'⟩ := ih cursor.tokenize.2
    exact ⟨taken ++ taken', htaken.trans htaken'⟩

theorem Answers.error_before {error error' : LexError} {later last : Cursor}
    (h : cursor.Answers (.error error) after) (hbetween : after.Takes taken later)
    (h' : later.Answers (.error error') last) : error.position.Before error'.position := by
  cases h with
  | @error _ gap text _ htaken htext hposition =>
    cases h' with
    | @error _ gap' _ _ _ _ hposition' =>
      have hplace : error'.position = error.position.advance (text ++ (taken ++ gap')) := by
        simp only [hposition', hbetween.position, htaken.position, hposition,
          Position.advance_append]
      rw [hplace]
      exact error.position.before_advance (List.append_ne_nil_of_left_ne_nil htext _)

theorem errors_before {n m : ℕ} {error error' : LexError} (hless : n < m)
    (herror : cursor.answer n = .error error) (herror' : cursor.answer m = .error error') :
    error.position.Before error'.position := by
  induction n generalizing cursor m with
  | zero =>
    cases m with
    | zero => exact absurd hless (Nat.lt_irrefl 0)
    | succ m =>
      obtain ⟨taken, htaken⟩ := cursor.tokenize.2.takes_leftBy m
      have hfirst := cursor.answers_tokenize
      have hsecond := (leftBy tokenize m cursor.tokenize.2).answers_tokenize
      rw [show cursor.tokenize.1 = .error error from herror] at hfirst
      rw [← answer_eq, show cursor.tokenize.2.answer m = .error error' from herror'] at hsecond
      exact hfirst.error_before htaken hsecond
  | succ n ih =>
    cases m with
    | zero => exact absurd hless (Nat.not_lt_zero _)
    | succ m => exact ih (Nat.lt_of_succ_lt_succ hless) herror herror'

theorem tokenize_end (p : Position) : (⟨[], p⟩ : Cursor).tokenize = (.ok [endMark p], ⟨[], p⟩) := by
  have hend : IsGap [] [] := fun _ => by rw [List.append_nil, skipTrivia]; rfl
  rw [tokenize_apply, scan_done hend]
  rfl

theorem left_of_ok {tokens : List Token} (h : cursor.tokenize.1 = .ok tokens) :
    cursor.tokenize.2 = ⟨[], cursor.position.advance cursor.rest⟩ := by
  have hanswers := cursor.answers_tokenize
  rw [h] at hanswers
  generalize cursor.tokenize.2 = after at hanswers ⊢
  cases hanswers with
  | ok htaken =>
    obtain ⟨rest, position⟩ := after
    obtain ⟨hrest, rfl⟩ := htaken
    have hnone : rest = [] := List.append_right_eq_self.mp hrest.symm
    rw [hnone]

theorem shorter_of_error {error : LexError} (h : cursor.tokenize.1 = .error error) :
    cursor.tokenize.2.rest.length < cursor.rest.length := by
  have hanswers := cursor.answers_tokenize
  rw [h] at hanswers
  cases hanswers with
  | error htaken htext _ =>
    have hlong := List.length_pos_iff.mpr htext
    rw [htaken.rest, List.length_append, List.length_append]
    omega

theorem answer_settles (source : String) : ∃ errors ≤ source.length, ∃ first,
    Settles (ofText source).answer errors first [endMark (Position.start.advance source.toList)] := by
  have hok : ∀ (cursor : Cursor) tokens, cursor.tokenize.1 = .ok tokens →
      cursor.tokenize.2.tokenize = (.ok [endMark cursor.tokenize.2.position], cursor.tokenize.2) := by
    intro cursor tokens hok
    rw [left_of_ok hok]
    exact tokenize_end _
  obtain ⟨errors, hle, first, hsettles⟩ := exists_settles (·.rest.length)
    (fun cursor => [endMark cursor.position]) (fun _ _ => shorter_of_error) hok (ofText source)
  simp only [← answer_eq] at hsettles
  obtain ⟨taken, htaken⟩ := (ofText source).takes_leftBy errors
  have hlast := hsettles.succeeds
  rw [answer_eq] at hlast
  have hposition : (leftBy tokenize (errors + 1) (ofText source)).position =
      .advance .start source.toList := by
    have hsource : source.toList = taken ++ (leftBy tokenize errors (ofText source)).rest :=
      htaken.rest
    rw [leftBy_succ, left_of_ok hlast, htaken.position, hsource, Position.advance_append]
    rfl
  rw [hposition] at hsettles
  exact ⟨errors, source.length_toList ▸ hle, first, hsettles⟩

end Cursor

end Texts

section Tokens

variable {α β : Type} {tokens : List Token}

/-- The step takes tokens from the front, and no end mark among them. -/
def Parse.SparesEnd (step : Parse α) : Prop :=
  ∀ tokens, ∃ taken, tokens = taken ++ (step tokens).2 ∧ ∀ token ∈ taken, token.kind ≠ .endOfInput

theorem Parse.SparesEnd.bind {step : Parse α} {next : α → Parse β} (first : step.SparesEnd)
    (then_ : ∀ value, (next value).SparesEnd) : (step >>= next).SparesEnd := by
  intro tokens
  obtain ⟨taken, htaken, hspared⟩ := first tokens
  rw [bind_apply]
  rcases hstep : step tokens with ⟨error | value, rest⟩ <;> rw [hstep] at htaken
  · exact ⟨taken, htaken, hspared⟩
  · obtain ⟨taken', htaken', hspared'⟩ := then_ value rest
    refine ⟨taken ++ taken', ?_, List.forall_mem_append.mpr ⟨hspared, hspared'⟩⟩
    rw [List.append_assoc, ← htaken']
    exact htaken

theorem sparesEnd_nextToken : nextToken.SparesEnd := by
  rintro (_ | ⟨token, rest⟩)
  · exact ⟨[], rfl, List.forall_mem_nil _⟩
  · by_cases hend : token.kind = .endOfInput
    · refine ⟨[], ?_, List.forall_mem_nil _⟩
      simp only [nextToken, if_pos hend, List.nil_append]
    · refine ⟨[token], ?_, List.forall_mem_singleton.mpr hend⟩
      rw [nextToken_of_kind hend]
      rfl

theorem sparesEnd_members (head : Expr) :
    Parse.SparesEnd (fun tokens => members head tokens : Parse Expr) := by
  intro tokens
  dsimp only
  fun_induction members head tokens with
  | case1 | case3 | case7 => exact ⟨[], rfl, List.forall_mem_nil _⟩
  | case2 head dot hdot => exact ⟨[dot], rfl, by simp [hdot]⟩
  | case4 head dot token behind hdot name hname ih =>
    obtain ⟨taken, htaken, hspared⟩ := ih
    exact ⟨dot :: token :: taken, congrArg (dot :: token :: ·) htaken,
      by simpa [hdot, hname] using hspared⟩
  | case5 head dot token behind hdot => exact ⟨[dot], rfl, by simp [hdot]⟩
  | case6 head dot token behind hdot hname hend =>
    exact ⟨[dot, token], rfl, by simpa [hdot] using hend⟩

theorem inherited_sparesEnd : Parse.Inherited fun _ step => step.SparesEnd where
  pure _ _ := ⟨[], rfl, List.forall_mem_nil _⟩
  refuse _ _ _ := ⟨[], rfl, List.forall_mem_nil _⟩
  nextToken := sparesEnd_nextToken
  members := sparesEnd_members
  bind := Parse.SparesEnd.bind

theorem statement_takes (h : atEnd tokens = false) : ∃ taken, tokens = taken ++ (statement tokens).2 ∧
    taken ≠ [] ∧ ∀ token ∈ taken, token.kind ≠ .endOfInput := by
  obtain ⟨behind, hstatement, hbehind⟩ := inherited_sparesEnd.behindFirst
  rcases tokens with _ | ⟨first, rest⟩
  · cases h
  have hend : first.kind ≠ .endOfInput := by simpa [atEnd] using h
  obtain ⟨taken, htaken, hspared⟩ := hbehind first rest
  refine ⟨first :: taken, ?_, List.cons_ne_nil _ _, List.forall_mem_cons.mpr ⟨hend, hspared⟩⟩
  rw [hstatement, Parse.bind_apply, nextToken_of_kind hend]
  exact congrArg (first :: ·) htaken

theorem statements_takes (tokens : List Token) : ∃ taken, tokens = taken ++ (statements tokens).2 ∧
    (atEnd tokens = false → taken ≠ []) ∧ ∀ token ∈ taken, token.kind ≠ .endOfInput := by
  induction tokens using statements.induct with
  | case1 tokens hend =>
    rw [statements_apply, if_pos hend]
    exact ⟨[], rfl, fun h => absurd hend (Bool.eq_false_iff.mp h), List.forall_mem_nil _⟩
  | case2 tokens hend error rest hstatement =>
    obtain ⟨taken, htaken, hsome, hspared⟩ := statement_takes (Bool.eq_false_iff.mpr hend)
    rw [statements_apply, if_neg hend]
    rw [hstatement] at htaken ⊢
    exact ⟨taken, htaken, fun _ => hsome, hspared⟩
  | case3 tokens hend stmt rest hstatement _ _ _ ih =>
    obtain ⟨taken, htaken, hsome, hspared⟩ := statement_takes (Bool.eq_false_iff.mpr hend)
    obtain ⟨taken', htaken', _, hspared'⟩ := ih
    rw [statements_apply, if_neg hend]
    rw [hstatement] at htaken ⊢
    refine ⟨taken ++ taken', ?_, fun _ => List.append_ne_nil_of_left_ne_nil hsome _,
      List.forall_mem_append.mpr ⟨hspared, hspared'⟩⟩
    rw [List.append_assoc, ← htaken']
    exact htaken

theorem left_parseProgram (tokens : List Token) :
    (parseProgram tokens).2 = (statements tokens).2 := rfl

theorem parseProgram_atEnd (h : atEnd tokens = true) :
    parseProgram tokens = (.ok ⟨[], ⟨.start, endOf tokens⟩⟩, tokens) := by
  have hend : endOf tokens = (tokens.head?.map Token.stop).getD .start := by
    rcases tokens with _ | ⟨token, rest⟩
    · rfl
    · have hkind : token.kind = .endOfInput := by simpa [atEnd] using h
      simp [endOf, hkind]
  unfold parseProgram
  rw [statements_apply, if_pos h, hend]
  rfl

theorem atEnd_of_parse {program : Program} (h : parse tokens = .ok program) :
    atEnd (parseProgram tokens).2 = true := by
  rw [left_parseProgram]
  unfold parse parseProgram at h
  rcases hread : statements tokens with ⟨error | stmts, rest⟩ <;> rw [hread] at h
  · cases h
  · obtain ⟨_, _, _, hrest⟩ := statements_iff.mp hread
    exact hrest

/-- A call goes on towards the same end mark; it takes something unless it is there. -/
theorem beforeEnd_left (tokens : List Token) : ∃ taken,
    beforeEnd tokens = taken ++ beforeEnd (parseProgram tokens).2 ∧
      endOf (parseProgram tokens).2 = endOf tokens ∧ (atEnd tokens = false → taken ≠ []) := by
  obtain ⟨taken, htaken, hsome, hspared⟩ := statements_takes tokens
  rw [← left_parseProgram] at htaken
  refine ⟨taken, ?_, ?_, hsome⟩
  · rw [← beforeEnd_behind hspared, ← htaken]
  · rw [← endOf_behind hspared, ← htaken]

theorem beforeEnd_leftBy (tokens : List Token) (calls : ℕ) :
    beforeEnd (leftBy parseProgram calls tokens) <:+ beforeEnd tokens ∧
      endOf (leftBy parseProgram calls tokens) = endOf tokens := by
  induction calls generalizing tokens with
  | zero => exact ⟨List.suffix_rfl, rfl⟩
  | succ calls ih =>
    obtain ⟨taken, htaken, hend, _⟩ := beforeEnd_left tokens
    obtain ⟨hbefore, hend'⟩ := ih (parseProgram tokens).2
    exact ⟨hbefore.trans ⟨taken, htaken.symm⟩, hend'.trans hend⟩

theorem fewer_of_error {error : ParseError} (h : parse tokens = .error error) :
    (beforeEnd (parseProgram tokens).2).length < (beforeEnd tokens).length := by
  obtain ⟨taken, htaken, _, hsome⟩ := beforeEnd_left tokens
  have hend : atEnd tokens = false := by
    refine Bool.eq_false_iff.mpr fun hend => ?_
    rw [parse, parseProgram_atEnd hend] at h
    cases h
  have hlong := List.length_pos_iff.mpr (hsome hend)
  rw [htaken, List.length_append]
  omega

def answerTo (tokens : List Token) (calls : ℕ) : Except ParseError Program :=
  parse (leftBy parseProgram calls tokens)

theorem answerTo_settles (tokens : List Token) : ∃ errors ≤ (beforeEnd tokens).length, ∃ program,
    Settles (answerTo tokens) errors program ⟨[], program.span⟩ ∧
      StatementsFrom (beforeEnd (leftBy parseProgram errors tokens)) program.statements ∧
      program.span = ⟨.start, endOf tokens⟩ := by
  have hok : ∀ tokens program, (parseProgram tokens).1 = .ok program →
      parseProgram (parseProgram tokens).2 =
        (.ok ⟨[], ⟨.start, endOf (parseProgram tokens).2⟩⟩, (parseProgram tokens).2) :=
    fun _ _ h => parseProgram_atEnd (atEnd_of_parse h)
  obtain ⟨errors, hle, program, hsettles⟩ := exists_settles (fun tokens => (beforeEnd tokens).length)
    (fun tokens => (⟨[], ⟨.start, endOf tokens⟩⟩ : Program)) (fun _ _ => fewer_of_error) hok tokens
  obtain ⟨hstatements, hspan⟩ := parse_beforeEnd_iff.mp hsettles.succeeds
  rw [(beforeEnd_leftBy tokens _).2] at hsettles hspan
  exact ⟨errors, hle, program, hspan ▸ hsettles, hstatements, hspan⟩

end Tokens

/-- Calls on one text fail at most as often as it has characters, each time farther in the text; then
one reads what is left, and all later ones find only the end of the text. Calls on one row of tokens
fail at most as often as there are tokens before the end mark; then one reads what is left before it
as statements, and all later ones find none and end at the same place. -/
theorem calls_settle (source : String) (tokens : List Token) :
    (∃ errors ≤ source.length, ∃ first,
      Settles (Cursor.ofText source).answer errors first
        [endMark (Position.start.advance source.toList)]) ∧
      (∀ n m error error', n < m → (Cursor.ofText source).answer n = .error error →
        (Cursor.ofText source).answer m = .error error' → error.position.Before error'.position) ∧
      ∃ errors ≤ (beforeEnd tokens).length, ∃ program,
        Settles (answerTo tokens) errors program ⟨[], program.span⟩ ∧
          beforeEnd (leftBy parseProgram errors tokens) <:+ beforeEnd tokens ∧
          StatementsFrom (beforeEnd (leftBy parseProgram errors tokens)) program.statements ∧
          program.span = ⟨.start, endOf tokens⟩ := by
  obtain ⟨errors, hle, program, hsettles, hstatements, hspan⟩ := answerTo_settles tokens
  exact ⟨Cursor.answer_settles source, fun _ _ _ _ => Cursor.errors_before, errors, hle, program,
    hsettles, (beforeEnd_leftBy tokens errors).1, hstatements, hspan⟩

def strayWords : List Token :=
  ([.semicolon, .letWord, .letWord, .exportWord, .identifier "x", .equal, .null, .semicolon] :
    List TokenKind).map TokenKind.token ++ [endMark ⟨1, 28, 27⟩, TokenKind.dot.token]

theorem calls_settle_faulty :
    (∃ first, Settles (Cursor.ofText faultySource).answer 2 first [endMark ⟨2, 5, 11⟩]) ∧
      (Position.mk 1 2 2).Before ⟨1, 3, 3⟩ ∧
      ∃ program, Settles (answerTo strayWords) 2 program ⟨[], ⟨.start, ⟨1, 28, 27⟩⟩⟩ ∧
        leftBy parseProgram 2 strayWords = strayWords.drop 3 ∧
        StatementsFrom (beforeEnd (strayWords.drop 3)) program.statements := by
  obtain ⟨⟨errors, _, first, htext⟩, hbefore, errors', _, program, htokens, _, hstatements, hspan⟩ :=
    calls_settle faultySource strayWords
  have hfirst : (Cursor.ofText faultySource).answer 0 =
      .error ⟨.unexpectedCharacter '~', ⟨1, 2, 2⟩⟩ := by decide +kernel
  have hsecond : (Cursor.ofText faultySource).answer 1 =
      .error ⟨.unterminatedString, ⟨1, 3, 3⟩⟩ := by decide +kernel
  have hleft : leftBy parseProgram 2 strayWords = strayWords.drop 3 := by decide +kernel
  have hend : Position.start.advance faultySource.toList = ⟨2, 5, 11⟩ := by decide +kernel
  have hendOf : endOf strayWords = ⟨1, 28, 27⟩ := by decide
  obtain rfl := htext.errors_eq (n := 2) (by decide +kernel) (by decide +kernel)
  obtain rfl := htokens.errors_eq (n := 2) (by decide +kernel) (by decide +kernel)
  rw [hend] at htext
  rw [hspan, hendOf] at htokens
  rw [hleft] at hstatements
  exact ⟨⟨first, htext⟩, hbefore 0 1 _ _ Nat.one_pos hfirst hsecond, program, htokens, hleft,
    hstatements⟩

end Interpose.Script
