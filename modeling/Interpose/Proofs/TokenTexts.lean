import Interpose.Proofs.Lexemes
import Interpose.Script.Quote

set_option autoImplicit false

namespace Interpose.Script

section Characters

theorem le_of_isAlphabetic {c : Char} (h : Text.isAlphabetic c = true) : 0x41 ≤ c.toNat := by
  have hfirst : ∀ {low high : Nat} {rest : Text.Ranges} {n : Nat}, low ≤ high →
      Text.Ranges.has ((low, high) :: rest) n = true → low ≤ n := by
    intro low high rest n hrange hhas
    rw [Text.Ranges.has] at hhas
    split at hhas
    next => simpa using hhas
    next => omega
  exact hfirst (by decide) h

theorem isWordStart_cases {c : Char} (h : isWordStart c = true) : c = '_' ∨ 0x41 ≤ c.toNat := by
  rw [isWordStart, Bool.or_eq_true, beq_iff_eq] at h
  exact h.symm.imp_right le_of_isAlphabetic

theorem isDigit_iff {c : Char} : Text.isDigit c = true ↔ 0x30 ≤ c.toNat ∧ c.toNat ≤ 0x39 := by
  simp only [Text.isDigit, Bool.and_eq_true, decide_eq_true_eq, Char.le_def]
  exact Iff.rfl

theorem not_isDigit_of_isWordStart {c : Char} (h : isWordStart c = true) : ¬ Text.isDigit c = true := by
  rw [isDigit_iff]
  rcases isWordStart_cases h with rfl | hletter
  · decide
  · omega

theorem isNumeric_of_isDigit {c : Char} (h : Text.isDigit c = true) : Text.isNumeric c = true := by
  obtain ⟨hlow, hhigh⟩ := isDigit_iff.mp h
  change (if c.toNat ≤ 0x39 then decide (0x30 ≤ c.toNat) else _) = true
  rw [if_pos hhigh]
  exact decide_eq_true hlow

end Characters

/-- The inside of a string literal, its closing quote included, and the characters it stands for. -/
inductive Quoted : List Char → List Char → Prop where
  | closed : Quoted ['"'] []
  | escaped {e c : Char} {body value : List Char} (hescape : unescape e = some c)
      (hbody : Quoted body value) : Quoted ('\\' :: e :: body) (c :: value)
  | plain {c : Char} {body value : List Char} (hquote : c ≠ '"') (hline : c ≠ '\n')
      (hescape : c ≠ '\\') (hbody : Quoted body value) : Quoted (c :: body) (c :: value)

/-- No character that passes the test is next. -/
def StopsAt (test : Char → Bool) (rest : List Char) : Prop := ∀ c ∈ rest.head?, test c = false

theorem StopsAt.digits {rest : List Char} (h : StopsAt isWordPart rest) :
    StopsAt Text.isDigit rest := by
  refine fun c hc => Bool.eq_false_iff.mpr fun hdigit => ?_
  have hpart := h c hc
  simp [isWordPart, isNumeric_of_isDigit hdigit] at hpart

/-- The texts that are tokens, with what may be behind them. -/
inductive Reads : TokenKind → List Char → List Char → Prop where
  | equal {rest : List Char} : Reads .equal ['='] rest
  | dot {rest : List Char} : Reads .dot ['.'] rest
  | semicolon {rest : List Char} : Reads .semicolon [';'] rest
  | string {body value rest : List Char} (hbody : Quoted body value) :
      Reads (.string (.ofList value)) ('"' :: body) rest
  | integer {first : Char} {digits rest : List Char} {kind : TokenKind}
      (hfirst : Text.isDigit first = true ∨ first = '-' ∧ digits ≠ [])
      (hdigits : ∀ c ∈ digits, Text.isDigit c = true) (hrest : StopsAt Text.isDigit rest)
      (hkind : integerKind first digits = .ok kind) : Reads kind (first :: digits) rest
  | word {first : Char} {word rest : List Char} (hfirst : isWordStart first = true)
      (hword : ∀ c ∈ word, isWordPart c = true) (hrest : StopsAt isWordPart rest) :
      Reads (.ofWord (.ofList (first :: word))) (first :: word) rest

section Strings

theorem Quoted.stringBody {body value : List Char} (h : Quoted body value) (rest : List Char)
    (p : Position) : stringBody (body ++ rest) p = (.ok value, ⟨rest, p.advance body⟩) := by
  induction h generalizing p with
  | closed =>
    rw [List.cons_append, stringBody.eq_def]
    rfl
  | escaped hescape _ ih =>
    rw [List.cons_append, stringBody.eq_def]
    simp [hescape, ih, Except.map]
  | plain hquote hline hescape _ ih =>
    rw [List.cons_append, stringBody.eq_def]
    simp [hquote, hline, hescape, ih, Except.map]

theorem quoted_of_stringBody {cs value : List Char} {p : Position} {cursor : Cursor}
    (h : stringBody cs p = (.ok value, cursor)) :
    ∃ body, Quoted body value ∧ cs = body ++ cursor.rest := by
  induction cs, p using stringBody.induct generalizing value with
  | case1 => cases h
  | case2 rest p =>
    rw [stringBody.eq_def] at h
    cases h
    exact ⟨['"'], .closed, rfl⟩
  | case3 rest p =>
    rw [stringBody.eq_def] at h
    cases h
  | case4 p =>
    rw [stringBody.eq_def] at h
    cases h
  | case5 p e rest hescape =>
    rw [stringBody.eq_def] at h
    simp [hescape] at h
  | case6 p e rest c hescape body cursor' _ _ after hbody =>
    rename_i ih
    rw [stringBody.eq_def] at h
    change stringBody rest ((p.next '\\').next e) = _ at hbody
    simp only [hescape, hbody, Char.reduceEq, if_false, if_true] at h
    cases body with
    | error fault => cases h
    | ok value =>
      cases h
      obtain ⟨body, hquoted, rfl⟩ := ih hbody
      exact ⟨'\\' :: e :: body, .escaped hescape hquoted, rfl⟩
  | case7 c rest p hquote hline hescape body cursor' hbody ih =>
    rw [stringBody.eq_def] at h
    simp only [hbody, hquote, hline, hescape, if_false] at h
    cases body with
    | error fault => cases h
    | ok value =>
      cases h
      obtain ⟨body, hquoted, rfl⟩ := ih hbody
      exact ⟨c :: body, .plain hquote hline hescape hquoted, rfl⟩

end Strings

section Words

variable {test : Char → Bool} {front rest : List Char}

theorem split_while (hfront : ∀ c ∈ front, test c = true) (hrest : StopsAt test rest) :
    (front ++ rest).takeWhile test = front ∧ (front ++ rest).dropWhile test = rest := by
  rw [List.takeWhile_append_of_pos hfront, List.dropWhile_append_of_pos hfront]
  rcases rest with _ | ⟨c, rest⟩
  · simp
  · have hc : test c = false := hrest c rfl
    simp [hc]

theorem of_split_while (h : (front ++ rest).dropWhile test = rest) :
    (front ++ rest).takeWhile test = front ∧ (∀ c ∈ front, test c = true) ∧ StopsAt test rest := by
  have hfront : (front ++ rest).takeWhile test = front := by
    have hall := List.takeWhile_append_dropWhile (p := test) (l := front ++ rest)
    rw [h] at hall
    exact List.append_cancel_right hall
  refine ⟨hfront, ?_, ?_⟩
  · rw [← hfront]
    exact List.all_eq_true.mp List.all_takeWhile
  · intro c hc
    have hstop := List.head?_dropWhile_not test (front ++ rest)
    rw [h, Option.mem_def.mp hc] at hstop
    exact hstop

end Words

section Reads

theorem reads_of_spells {kind : TokenKind} {text rest : List Char} (h : Spells kind text rest) :
    Reads kind text rest := by
  obtain @⟨first, body, rest, hlexeme⟩ := h
  have h := hlexeme .start
  unfold lexeme at h
  dsimp only at h
  have hsingle : ∀ {p q : Position}, Cursor.mk (body ++ rest) p = ⟨rest, q⟩ → body = [] := by
    intro p q hcursor
    exact List.append_cancel_right (congrArg Cursor.rest hcursor)
  split at h
  next hfirst =>
    obtain ⟨hkind, hcursor⟩ := Prod.mk.inj h
    obtain rfl := hsingle hcursor
    cases hkind
    exact hfirst ▸ .equal
  split at h
  next hfirst =>
    obtain ⟨hkind, hcursor⟩ := Prod.mk.inj h
    obtain rfl := hsingle hcursor
    cases hkind
    exact hfirst ▸ .dot
  split at h
  next hfirst =>
    obtain ⟨hkind, hcursor⟩ := Prod.mk.inj h
    obtain rfl := hsingle hcursor
    cases hkind
    exact hfirst ▸ .semicolon
  split at h
  next hfirst =>
    rcases hbody : stringBody (body ++ rest) (Position.start.next first) with ⟨fault | value, cursor⟩
    all_goals
      rw [hbody] at h
      obtain ⟨hkind, rfl⟩ := Prod.mk.inj h
      cases hkind
    obtain ⟨body', hquoted, hcs⟩ := quoted_of_stringBody hbody
    rw [List.append_cancel_right hcs]
    exact hfirst ▸ .string hquoted
  split at h
  next hfirst =>
    obtain ⟨hkind, hcursor⟩ := Prod.mk.inj h
    obtain ⟨hdigits, hall, hstop⟩ := of_split_while (congrArg Cursor.rest hcursor)
    unfold digitsBody at hkind
    rw [hdigits] at hkind
    refine .integer ?_ hall hstop hkind
    rw [Bool.or_eq_true, Bool.and_eq_true, beq_iff_eq] at hfirst
    refine hfirst.imp_right fun ⟨hminus, hnext⟩ => ⟨hminus, ?_⟩
    -- the digit behind a sign is taken into the token
    rintro rfl
    rcases rest with _ | ⟨c, rest⟩
    · cases hnext
    · have hc : Text.isDigit c = false := hstop c rfl
      simp [hc] at hnext
  split at h
  next hfirst =>
    obtain ⟨hkind, hcursor⟩ := Prod.mk.inj h
    obtain ⟨hword, hall, hstop⟩ := of_split_while (congrArg Cursor.rest hcursor)
    rw [hword] at hkind
    cases hkind
    exact .word hfirst hall hstop
  next => cases h

theorem ne_of_isDigit {c : Char} (h : Text.isDigit c = true ∨ c = '-') :
    c ≠ '=' ∧ c ≠ '.' ∧ c ≠ ';' ∧ c ≠ '"' := by
  refine ⟨?_, ?_, ?_, ?_⟩
  all_goals
    rintro rfl
    revert h
    decide

theorem ne_of_isWordStart {c : Char} (h : isWordStart c = true) :
    c ≠ '=' ∧ c ≠ '.' ∧ c ≠ ';' ∧ c ≠ '"' ∧ c ≠ '-' := by
  refine ⟨?_, ?_, ?_, ?_, ?_⟩
  all_goals
    rintro rfl
    rcases isWordStart_cases h with hunderscore | hletter
    · cases hunderscore
    · revert hletter
      decide

theorem Reads.spells {kind : TokenKind} {text rest : List Char} (h : Reads kind text rest) :
    Spells kind text rest := by
  cases h with
  | equal => exact .read fun p => rfl
  | dot => exact .read fun p => rfl
  | semicolon => exact .read fun p => rfl
  | string hbody =>
    refine .read fun p => ?_
    unfold lexeme
    simp only [hbody.stringBody, Char.reduceEq, if_false, if_true]
    rfl
  | @integer first digits rest kind hfirst hdigits hrest hkind =>
    refine .read fun p => ?_
    obtain ⟨hequal, hdot, hsemicolon, hquote⟩ := ne_of_isDigit (hfirst.imp_right And.left)
    obtain ⟨htake, hdrop⟩ := split_while hdigits hrest
    have hnumber : (Text.isDigit first || first == '-' && (digits ++ rest).head?.any Text.isDigit) =
        true := by
      rcases hfirst with hdigit | ⟨rfl, hmore⟩
      · rw [hdigit, Bool.true_or]
      · obtain ⟨c, digits, rfl⟩ := List.exists_cons_of_ne_nil hmore
        simp [hdigits c List.mem_cons_self]
    unfold lexeme
    rw [if_neg hequal, if_neg hdot, if_neg hsemicolon, if_neg hquote, if_pos hnumber]
    simp only [digitsBody, htake, hdrop, hkind]
  | @word first word rest hfirst hword hrest =>
    refine .read fun p => ?_
    obtain ⟨hequal, hdot, hsemicolon, hquote, hminus⟩ := ne_of_isWordStart hfirst
    obtain ⟨htake, hdrop⟩ := split_while hword hrest
    have hnumber : ¬ (Text.isDigit first || first == '-' && (word ++ rest).head?.any Text.isDigit) =
        true := by
      simp [not_isDigit_of_isWordStart hfirst, hminus]
    unfold lexeme
    rw [if_neg hequal, if_neg hdot, if_neg hsemicolon, if_neg hquote, if_neg hnumber, if_pos hfirst]
    simp only [htake, hdrop]

/-- Whether a text is a token depends on the next character only. -/
theorem Reads.before {kind : TokenKind} {text rest rest' : List Char} (h : Reads kind text rest)
    (hrest : rest'.head? = rest.head?) : Reads kind text rest' := by
  cases h with
  | equal => exact .equal
  | dot => exact .dot
  | semicolon => exact .semicolon
  | string hbody => exact .string hbody
  | integer hfirst hdigits hstop hkind =>
    exact .integer hfirst hdigits (fun c hc => hstop c (hrest ▸ hc)) hkind
  | word hfirst hword hstop => exact .word hfirst hword fun c hc => hstop c (hrest ▸ hc)

theorem Reads.before_stop {kind : TokenKind} {text rest rest' : List Char} (h : Reads kind text rest)
    (hstop : StopsAt isWordPart rest') : Reads kind text rest' := by
  cases h with
  | equal => exact .equal
  | dot => exact .dot
  | semicolon => exact .semicolon
  | string hbody => exact .string hbody
  | integer hfirst hdigits _ hkind => exact .integer hfirst hdigits hstop.digits hkind
  | word hfirst hword _ => exact .word hfirst hword hstop

theorem Reads.head_ne_slash {kind : TokenKind} {text rest : List Char} (h : Reads kind text rest) :
    text.head? ≠ some '/' := by
  cases h with
  | equal | dot | semicolon | string hbody => simp
  | @integer first digits rest kind hfirst hdigits hstop hkind =>
    rintro ⟨⟩
    revert hfirst
    simp [Text.isDigit]
  | @word first word rest hfirst hword hstop =>
    rintro ⟨⟩
    rcases isWordStart_cases hfirst with hunderscore | hletter
    · cases hunderscore
    · revert hletter
      decide

theorem ofWord_ne_string (word value : String) : TokenKind.ofWord word ≠ .string value := by
  unfold TokenKind.ofWord
  repeat' split
  all_goals simp

theorem eq_integer_of_integerKind {first : Char} {digits : List Char} {kind : TokenKind}
    (h : integerKind first digits = .ok kind) : ∃ n, kind = .integer n := by
  unfold integerKind at h
  dsimp only at h
  split at h
  next n _ =>
    cases h
    exact ⟨n, rfl⟩
  next => cases h

theorem Reads.head_of_string {value : String} {text rest : List Char}
    (h : Reads (.string value) text rest) : text.head? = some '"' := by
  generalize hkind : TokenKind.string value = kind at h
  cases h with
  | equal | dot | semicolon => cases hkind
  | string hbody => rfl
  | integer hfirst hdigits hstop hinteger =>
    obtain ⟨n, rfl⟩ := eq_integer_of_integerKind hinteger
    cases hkind
  | word hfirst hword hstop => exact absurd hkind.symm (ofWord_ne_string _ _)

end Reads

section Quote

theorem quoted_append_quoteChar (c : Char) {body value : List Char} (h : Quoted body value) :
    Quoted (quoteChar c ++ body) (c :: value) := by
  unfold quoteChar
  split
  next hescaped =>
    rcases hescaped with rfl | rfl
    · exact .escaped rfl h
    · exact .escaped rfl h
  next hplain =>
    rw [not_or] at hplain
    split
    next hline => exact hline ▸ .escaped rfl h
    next hline =>
      split
      next htab => exact htab ▸ .escaped rfl h
      next => exact .plain hplain.1 hline hplain.2 h

theorem quoted_quote (value : List Char) : Quoted (value.flatMap quoteChar ++ ['"']) value := by
  induction value with
  | nil => exact .closed
  | cons c rest ih =>
    rw [List.flatMap_cons, List.append_assoc]
    exact quoted_append_quoteChar c ih

/-- A quoted value is a token wherever it stands, and the token is that value. -/
theorem reads_quote (value : String) (rest : List Char) :
    Reads (.string value) (quote value).toList rest := by
  have hreads : Reads _ _ rest := .string (quoted_quote value.toList)
  rw [String.ofList_toList] at hreads
  rw [quote, String.toList_ofList]
  exact hreads

end Quote

section Gaps

/-- Where blanks and comments end does not depend on the place. -/
theorem skipTrivia_anywhere {inComment : Bool} {gap rest : List Char} {p : Position}
    (h : (skipTrivia inComment (gap ++ rest) p).rest = rest) (q : Position) :
    skipTrivia inComment (gap ++ rest) q = ⟨rest, q.advance gap⟩ := by
  obtain ⟨gap', rest', hsplit, hskip⟩ := skipTrivia_split inComment (gap ++ rest)
  rw [hskip] at h
  dsimp only at h
  subst h
  rw [hskip, List.append_cancel_right hsplit]

theorem skipTrivia_ne (inComment : Bool) (cs : List Char) (p : Position) {c : Char}
    {rest : List Char} (hlength : cs.length ≤ rest.length) :
    (skipTrivia inComment cs p).rest ≠ c :: rest := by
  intro h
  have hle := skipTrivia_length_le inComment cs p
  rw [h, List.length_cons] at hle
  omega

/-- Where a gap ends before a character that begins no comment, it ends before any other such
character that is no blank, whatever is behind it. -/
theorem skipTrivia_before {c c' : Char} (hc : c ≠ '/') (hslash : c' ≠ '/')
    (hblank : Text.isBlank c' = false) {rest : List Char} (rest' : List Char) {gap : List Char}
    {inComment : Bool} {p : Position}
    (h : (skipTrivia inComment (gap ++ c :: rest) p).rest = c :: rest) :
    (skipTrivia inComment (gap ++ c' :: rest') p).rest = c' :: rest' := by
  induction gap generalizing inComment p with
  | nil =>
    rw [List.nil_append, skipTrivia] at h ⊢
    split at h
    next => exact absurd h (skipTrivia_ne _ _ _ (Nat.le_refl _))
    next hcomment =>
      rw [if_neg hcomment, if_neg (by simp [hblank]), if_neg fun hboth => hslash hboth.1]
  | cons g gap ih =>
    have hhead : (gap ++ c' :: rest').head? = some '/' ↔ (gap ++ c :: rest).head? = some '/' := by
      cases gap <;> simp [hc, hslash]
    rw [List.cons_append, skipTrivia] at h ⊢
    split at h
    next hcomment =>
      rw [if_pos hcomment]
      exact ih h
    next hcomment =>
      rw [if_neg hcomment]
      split at h
      next hblank =>
        rw [if_pos hblank]
        exact ih h
      next hblank =>
        rw [if_neg hblank]
        split at h
        next hcomments =>
          rw [if_pos ⟨hcomments.1, hhead.mpr hcomments.2⟩]
          exact ih h
        next =>
          have hlength := congrArg List.length h
          simp only [List.length_cons, List.length_append] at hlength
          omega

theorem IsGap.before {gap : List Char} {c c' : Char} {rest : List Char} (h : IsGap gap (c :: rest))
    (hc : c ≠ '/') (hslash : c' ≠ '/') (hblank : Text.isBlank c' = false) (rest' : List Char) :
    IsGap gap (c' :: rest') := fun p =>
  skipTrivia_anywhere (skipTrivia_before hc hslash hblank rest' (congrArg Cursor.rest (h p))) p

end Gaps

end Interpose.Script
