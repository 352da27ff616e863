import Interpose.Proofs.Lossless
import Interpose.Proofs.Relocation

set_option autoImplicit false

namespace Interpose.Script

/-- Where a place of a text is when the text stands behind another one that is a single line. Only
its first line is moved to the right. -/
def Position.behind (front : String) (p : Position) : Position :=
  ⟨p.line, if p.line = 1 then p.column + front.length else p.column, p.offset + front.utf8ByteSize⟩

section Behind

variable (front : String)

theorem Position.next_behind {p : Position} (hline : 0 < p.line) (c : Char) :
    (p.behind front).next c = (p.next c).behind front := by
  unfold behind next
  by_cases hfeed : c = '\n'
  · have hbelow : p.line + 1 ≠ 1 := by omega
    simp only [if_pos hfeed, if_neg hbelow, Nat.add_right_comm p.offset]
  · simp only [if_neg hfeed, Nat.add_right_comm p.offset]
    split <;> simp only [Nat.add_right_comm p.column]

theorem Position.advance_behind {p : Position} (hline : 0 < p.line) (cs : List Char) :
    (p.behind front).advance cs = (p.advance cs).behind front := by
  induction cs generalizing p with
  | nil => rfl
  | cons c cs ih =>
    have hnext : 0 < (p.next c).line := by
      unfold next
      split
      · exact Nat.succ_pos _
      · exact hline
    rw [advance_cons, next_behind front hline, ih hnext, advance_cons]

variable {front}

theorem Position.behind_start (hfront : '\n' ∉ front.toList) :
    start.advance front.toList = start.behind front := by
  have hline : (start.advance front.toList).line = 1 := by
    rw [line_advance, List.count_eq_zero_of_not_mem hfront]
    rfl
  have hcolumn : (start.advance front.toList).column = 1 + front.length := by
    rw [column_advance, List.rtakeWhile_eq_self_iff.mpr, String.length_toList]
    intro c hc
    exact decide_eq_true fun hfeed => hfront (hfeed ▸ hc)
  have hoffset : (start.advance front.toList).offset = 0 + front.utf8ByteSize := by
    rw [offset_advance_toList, Nat.zero_add]
  exact congr (congr (congrArg Position.mk hline) hcolumn) hoffset

theorem Cursor.moved_behind (hfront : '\n' ∉ front.toList) (rest : String) :
    (Cursor.ofText rest).Moved (Position.behind front)
      ⟨rest.toList, Position.start.advance front.toList⟩ := by
  refine ⟨rfl, fun cs => ?_⟩
  rw [Position.behind_start hfront]
  exact Position.advance_behind front Nat.one_pos cs

end Behind

section Quoted

theorem line_not_mem_quoteChar (c : Char) : '\n' ∉ quoteChar c := by
  unfold quoteChar
  split
  next hescaped => rcases hescaped with rfl | rfl <;> decide
  next =>
    split
    next => decide
    next hline =>
      split
      next => decide
      next => exact fun hmem => hline (List.mem_singleton.mp hmem).symm

theorem line_not_mem_quote (value : String) : '\n' ∉ (quote value).toList := by
  have hbody : '\n' ∉ value.toList.flatMap quoteChar := fun hmem => by
    obtain ⟨c, _, hc⟩ := List.mem_flatMap.mp hmem
    exact line_not_mem_quoteChar c hc
  simp [quote, hbody]

def quotedToken (value : String) : Token :=
  ⟨.string value, ⟨.start, Position.start.behind (quote value)⟩⟩

/-- The closing quote is found where it was written, whatever is behind it. -/
theorem scan_quote (value rest : String) : (Cursor.ofText (quote value ++ rest)).scan =
    (.ok (some (quotedToken value)),
      ⟨rest.toList, Position.start.advance (quote value).toList⟩) := by
  have hreads := reads_quote value rest.toList
  have hscan := scan_token (hreads.isGap_nil rest.toList) hreads.spells .start
  rw [List.nil_append, Position.advance_nil] at hscan
  rw [Cursor.ofText, String.toList_append, hscan, Position.behind_start (line_not_mem_quote value)]
  rfl

theorem tokenize_behind (value rest : String) : tokenize (quote value ++ rest) =
    ((tokenize rest).map fun tokens =>
      quotedToken value :: tokens.map (Token.moved (Position.behind (quote value)))).mapError
        (LexError.moved (Position.behind (quote value))) := by
  have hrest := tokenize_moved (Cursor.moved_behind (line_not_mem_quote value) rest)
  unfold tokenize
  rw [tokenize_apply, scan_quote]
  dsimp only
  rw [hrest]
  rcases (Cursor.ofText rest).tokenize.1 with error | tokens <;> rfl

theorem textIn_quote (value rest : String) :
    (quotedToken value).span.textIn (quote value ++ rest) = quote value := by
  have hsource : (quote value ++ rest).toList = [] ++ ((quote value).toList ++ rest.toList) := by
    rw [String.toList_append, List.nil_append]
  have hbetween := Edit.between_chars hsource
  rw [List.nil_append, Position.behind_start (line_not_mem_quote value),
    String.ofList_toList] at hbetween
  exact hbetween

theorem quote_injective : Function.Injective quote := by
  intro value other hquote
  have hscan := scan_quote value ""
  rw [hquote, scan_quote other ""] at hscan
  have htoken : quotedToken other = quotedToken value :=
    Option.some.inj (Except.ok.inj (congrArg Prod.fst hscan))
  exact (TokenKind.string.inj (congrArg Token.kind htoken)).symm

/-- Reading undoes quoting: of a text that begins with a quoted value, the first token is that value
and covers what was quoted. Behind it come the tokens of the rest, or its error, moved to the right
by as much as the quoted value is long. -/
theorem quoting_undone : Function.Injective quote ∧ ∀ value : String, '\n' ∉ (quote value).toList ∧
    ∀ rest : String,
      (quotedToken value).span.textIn (quote value ++ rest) = quote value ∧
      (Cursor.ofText (quote value ++ rest)).scan =
        (.ok (some (quotedToken value)), ⟨rest.toList, (quotedToken value).stop⟩) ∧
      (∀ tokens, tokenize rest = .ok tokens → tokenize (quote value ++ rest) =
        .ok (quotedToken value :: tokens.map (Token.moved (Position.behind (quote value))))) ∧
      ∀ error, tokenize rest = .error error → tokenize (quote value ++ rest) =
        .error (error.moved (Position.behind (quote value))) := by
  refine ⟨quote_injective, fun value => ⟨line_not_mem_quote value, fun rest => ?_⟩⟩
  have hstop : (quotedToken value).stop = Position.start.advance (quote value).toList :=
    (Position.behind_start (line_not_mem_quote value)).symm
  refine ⟨textIn_quote value rest, ?_, fun tokens htokens => ?_, fun error herror => ?_⟩
  · rw [hstop]
    exact scan_quote value rest
  · rw [tokenize_behind, htokens]
    rfl
  · rw [tokenize_behind, herror]
    rfl

theorem quoting_undone_escapes : quote "\\\"\né" = "\"\\\\\\\"\\né\"" ∧
    tokenize (quote "\\\"\né" ++ "x\n;") = .ok [⟨.string "\\\"\né", ⟨⟨1, 1, 0⟩, ⟨1, 10, 10⟩⟩⟩,
      ⟨.identifier "x", ⟨⟨1, 10, 10⟩, ⟨1, 11, 11⟩⟩⟩, ⟨.semicolon, ⟨⟨2, 1, 12⟩, ⟨2, 2, 13⟩⟩⟩,
      ⟨.endOfInput, ⟨⟨2, 2, 13⟩, ⟨2, 2, 13⟩⟩⟩] ∧
    tokenize (quote "\\\"\né" ++ "x \"a\nb") = .error ⟨.unterminatedString, ⟨1, 12, 12⟩⟩ := by
  obtain ⟨-, hquoted⟩ := quoting_undone
  obtain ⟨-, hrest⟩ := hquoted "\\\"\né"
  obtain ⟨-, -, htokens, -⟩ := hrest "x\n;"
  obtain ⟨-, -, -, herror⟩ := hrest "x \"a\nb"
  refine ⟨by decide +kernel, ?_, ?_⟩
  · exact (htokens [⟨.identifier "x", ⟨⟨1, 1, 0⟩, ⟨1, 2, 1⟩⟩⟩, ⟨.semicolon, ⟨⟨2, 1, 2⟩, ⟨2, 2, 3⟩⟩⟩,
      ⟨.endOfInput, ⟨⟨2, 2, 3⟩, ⟨2, 2, 3⟩⟩⟩] (by decide +kernel)).trans (by decide +kernel)
  · exact (herror ⟨.unterminatedString, ⟨1, 3, 2⟩⟩ (by decide +kernel)).trans (by decide +kernel)

end Quoted

end Interpose.Script
