import Mathlib.Data.List.DropRight
import Interpose.Proofs.SyntaxTree

set_option autoImplicit false

namespace Interpose.Script

def placed (start stop : Position) : Except LexFault (Option TokenKind) → Except LexError (Option Token)
  | .ok none => .ok none
  | .ok (some kind) => .ok (some ⟨kind, ⟨start, stop⟩⟩)
  | .error fault => .error ⟨fault, start⟩

/-- A step takes a gap and a lexeme from the front, and what it makes of them does not depend on
where they stand. There is no lexeme at the end only. -/
theorem scan_split (cs : List Char) : ∃ gap text rest read, cs = gap ++ (text ++ rest) ∧
    (∀ p : Position, (⟨cs, p⟩ : Cursor).scan =
      (placed (p.advance gap) ((p.advance gap).advance text) read,
        ⟨rest, (p.advance gap).advance text⟩)) ∧
    (read = .ok none ∧ rest = [] ∨ read ≠ .ok none ∧ text ≠ []) := by
  obtain ⟨gap, behind, rfl, hskip⟩ := skipTrivia_split false cs
  cases behind with
  | nil =>
    refine ⟨gap, [], [], .ok none, rfl, fun p => ?_, .inl ⟨rfl, rfl⟩⟩
    simp only [Cursor.scan, hskip, placed, Position.advance_nil]
  | cons first behind =>
    obtain ⟨result, body, rest, rfl, hlexeme⟩ := lexeme_split first behind
    refine ⟨gap, first :: body, rest, result.map some, rfl, fun p => ?_, .inr ⟨?_, List.cons_ne_nil _ _⟩⟩
    · simp only [Cursor.scan, hskip, hlexeme, Position.advance_cons]
      cases result <;> rfl
    · intro h
      cases result <;> cases h

section Counts

/-- A place between two characters of a source, as a reader of the source counts it. -/
def Position.IsIn (source : String) (p : Position) : Prop :=
  ∃ front behind, source.toList = front ++ behind ∧
    p.line = 1 + front.count '\n' ∧
    p.column = 1 + (front.rtakeWhile (· ≠ '\n')).length ∧
    p.offset = (String.ofList front).utf8ByteSize

theorem Position.line_advance (p : Position) (cs : List Char) :
    (p.advance cs).line = p.line + cs.count '\n' := by
  induction cs generalizing p with
  | nil => rfl
  | cons c cs ih =>
    rw [advance_cons, ih, next]
    split
    next hline =>
      subst hline
      rw [List.count_cons_self]
      dsimp only
      omega
    next hline => rw [List.count_cons_of_ne hline]

theorem Position.column_advance (cs : List Char) :
    (start.advance cs).column = 1 + (cs.rtakeWhile (· ≠ '\n')).length := by
  induction cs using List.reverseRecOn with
  | nil => rfl
  | append_singleton cs c ih =>
    rw [advance_append, advance_cons, advance_nil, next, List.rtakeWhile_concat]
    by_cases hline : c = '\n'
    · simp [hline]
    · rw [if_neg hline, if_pos (decide_eq_true hline), List.length_append, List.length_singleton,
        ← Nat.add_assoc, ← ih]

theorem Position.isIn_advance {source : String} {front behind : List Char}
    (h : source.toList = front ++ behind) : (start.advance front).IsIn source :=
  ⟨front, behind, h, line_advance start front, column_advance front,
    (offset_advance start front).trans (Nat.zero_add _)⟩

theorem Position.IsIn.isValid {source : String} {p : Position} (h : p.IsIn source) :
    String.Pos.Raw.IsValid source ⟨p.offset⟩ := by
  obtain ⟨front, behind, hsource, _, _, hoffset⟩ := h
  refine String.Pos.Raw.isValid_iff_exists_append.mpr ⟨.ofList front, .ofList behind, ?_, ?_⟩
  · rw [← String.ofList_append, ← hsource, String.ofList_toList]
  · rw [hoffset]
    rfl

end Counts

section Calls

variable {source : String}

/-- The cursor is behind what has been read of the source. -/
def Cursor.IsIn (source : String) (cursor : Cursor) : Prop :=
  ∃ front, source.toList = front ++ cursor.rest ∧ cursor.position = .advance .start front

theorem Cursor.isIn_ofText (source : String) : (Cursor.ofText source).IsIn source :=
  ⟨[], rfl, rfl⟩

def placesOf : Except LexError (List Token) → List Position
  | .ok tokens => tokens.flatMap fun token => [token.start, token.stop]
  | .error error => [error.position]

theorem placesOf_cons (token : Token) (read : Except LexError (List Token)) :
    ∀ p ∈ placesOf (read.map (token :: ·)), p = token.start ∨ p = token.stop ∨ p ∈ placesOf read := by
  intro p hp
  cases read with
  | error error => exact .inr (.inr hp)
  | ok tokens => simpa [placesOf, Except.map, or_assoc] using hp

/-- What the calls on one cursor answer, one after the other; each goes on where the one before it
stopped. -/
def Cursor.answer (cursor : Cursor) : Nat → Except LexError (List Token)
  | 0 => cursor.tokenize.1
  | calls + 1 => cursor.tokenize.2.answer calls

theorem Cursor.IsIn.scan {cursor : Cursor} (h : cursor.IsIn source) :
    cursor.scan.2.IsIn source ∧
      (∀ token, cursor.scan.1 = .ok (some token) →
        token.start.IsIn source ∧ token.stop.IsIn source) ∧
      ∀ error, cursor.scan.1 = .error error → error.position.IsIn source := by
  obtain ⟨cs, p⟩ := cursor
  obtain ⟨front, hsource, rfl⟩ := h
  obtain ⟨gap, text, rest, read, rfl, hscan, _⟩ := scan_split cs
  have hstart : ((Position.start.advance front).advance gap).IsIn source := by
    rw [← Position.advance_append]
    exact Position.isIn_advance (hsource.trans (List.append_assoc ..).symm)
  have hbehind : source.toList = (front ++ (gap ++ text)) ++ rest := by simp [hsource]
  have hstop : (((Position.start.advance front).advance gap).advance text).IsIn source := by
    rw [← Position.advance_append, ← Position.advance_append]
    exact Position.isIn_advance hbehind
  rw [hscan]
  refine ⟨⟨front ++ (gap ++ text), hbehind, ?_⟩, ?_, ?_⟩
  · rw [Position.advance_append, Position.advance_append]
  · intro token htoken
    rcases read with fault | _ | kind <;> cases htoken
    exact ⟨hstart, hstop⟩
  · intro error herror
    rcases read with fault | _ | kind <;> cases herror
    exact hstart

theorem Cursor.IsIn.tokenize {cursor : Cursor} (h : cursor.IsIn source) :
    cursor.tokenize.2.IsIn source ∧ ∀ p ∈ placesOf cursor.tokenize.1, p.IsIn source := by
  induction cursor using Cursor.tokenize.induct with
  | case1 cursor after hscan =>
    obtain ⟨hafter, _, _⟩ := h.scan
    rw [hscan] at hafter
    rw [tokenize_apply, hscan]
    obtain ⟨front, hsource, hposition⟩ := hafter
    refine ⟨⟨front, hsource, hposition⟩, ?_⟩
    have hin : after.position.IsIn source := hposition ▸ Position.isIn_advance hsource
    simpa [placesOf, Token.start, Token.stop] using hin
  | case2 cursor error after hscan =>
    obtain ⟨hafter, _, herror⟩ := h.scan
    rw [hscan] at hafter herror
    rw [tokenize_apply, hscan]
    exact ⟨hafter, List.forall_mem_singleton.mpr (herror error rfl)⟩
  | case3 cursor token after hscan _ _ _ ih =>
    obtain ⟨hafter, htoken, _⟩ := h.scan
    rw [hscan] at hafter htoken
    rw [tokenize_apply, hscan]
    obtain ⟨hlast, hplaces⟩ := ih hafter
    obtain ⟨hstart, hstop⟩ := htoken token rfl
    refine ⟨hlast, fun p hp => ?_⟩
    rcases placesOf_cons _ _ p hp with rfl | rfl | hp
    · exact hstart
    · exact hstop
    · exact hplaces p hp

theorem isIn_of_tokenize {tokens : List Token} (h : tokenize source = .ok tokens) :
    ∀ token ∈ tokens, token.start.IsIn source ∧ token.stop.IsIn source := by
  have hplaces := (Cursor.isIn_ofText source).tokenize.2
  change ∀ p ∈ placesOf (tokenize source), _ at hplaces
  rw [h] at hplaces
  intro token htoken
  have hspan : ∀ p ∈ [token.start, token.stop], p.IsIn source :=
    fun p hp => hplaces p (List.mem_flatMap.mpr ⟨token, htoken, hp⟩)
  exact ⟨hspan _ (by simp), hspan _ (by simp)⟩

/-- Every place that one of the calls reports is a place of the source. -/
theorem answer_places {cursor : Cursor} (h : cursor.IsIn source) (calls : Nat) :
    ∀ p ∈ placesOf (cursor.answer calls), p.IsIn source := by
  induction calls generalizing cursor with
  | zero => exact h.tokenize.2
  | succ calls ih => exact ih h.tokenize.1

end Calls

end Interpose.Script
