import Interpose.Proofs.Replacement

set_option autoImplicit false

namespace Interpose.Edit
open Script

variable {edit next : LiteralEdit} {source : String} {program : Program}

/-- What is written last for a literal, where the second edit is given the literals of the first. -/
def LiteralEdit.andThen (edit next : LiteralEdit) : LiteralEdit := fun value =>
  match edit value with
  | some (text, result) => (next result).or (some (text, result))
  | none => next value

theorem edited_edited (edit next : LiteralEdit) (lexeme : Lexeme) :
    edited next (edited edit lexeme) = edited (edit.andThen next) lexeme := by
  rcases hliteral : lexeme.kind.literal? with _ | value
  · have hnone : ∀ edit : LiteralEdit, edited edit lexeme = lexeme := fun edit =>
      edited_unwritten (by rw [hliteral]; rfl)
    rw [hnone, hnone, hnone]
  · have hbind : ∀ edit : LiteralEdit, lexeme.kind.literal?.bind edit = edit value := fun edit => by
      rw [hliteral]
      rfl
    rcases hwrite : edit value with _ | ⟨text, result⟩
    · have hboth : edit.andThen next value = next value := by rw [LiteralEdit.andThen, hwrite]
      rw [edited_unwritten ((hbind edit).trans hwrite)]
      unfold edited
      rw [hbind, hbind, hboth]
    · have hboth : edit.andThen next value = (next result).or (some (text, result)) := by
        rw [LiteralEdit.andThen, hwrite]
      rw [edited_written ((hbind edit).trans hwrite)]
      rcases hnext : next result with _ | ⟨text', result'⟩
      · rw [hnext, Option.none_or] at hboth
        rw [edited_written ((hbind _).trans hboth)]
        exact edited_unwritten (by rw [literal?_ofLiteral, Option.bind_some, hnext])
      · rw [hnext, Option.some_or] at hboth
        rw [edited_written ((hbind _).trans hboth)]
        exact edited_written (by rw [literal?_ofLiteral, Option.bind_some, hnext])

theorem LiteralEdit.Quotes.andThen (hedit : edit.Quotes) (hnext : next.Quotes) :
    (edit.andThen next).Quotes := by
  intro value text result hwrite
  unfold LiteralEdit.andThen at hwrite
  split at hwrite
  next first middle hfirst =>
    obtain ⟨old, new, rfl, rfl, rfl⟩ := hedit _ _ _ hfirst
    rcases Option.or_eq_some_iff.mp hwrite with hsecond | ⟨_, hpair⟩
    · obtain ⟨_, new', _, rfl, rfl⟩ := hnext _ _ _ hsecond
      exact ⟨old, new', rfl, rfl, rfl⟩
    · cases hpair
      exact ⟨old, new, rfl, rfl, rfl⟩
  next => exact hnext _ _ _ hwrite

theorem editing_andThen (hparse : parseText source = .ok program) (hedit : edit.Quotes)
    (hnext : next.Quotes) :
    ∃ middle output, transformerOf (editing edit) source = .ok middle ∧
      transformerOf (editing next) middle = .ok output ∧
      transformerOf (editing (edit.andThen next)) source = .ok output := by
  obtain ⟨lexemes, last, hspelled⟩ := exists_spelledBy hparse
  have hboth := hedit.andThen hnext
  obtain ⟨middle, _, hmiddle, hspelled', _⟩ :=
    hspelled.edited hedit.spells fun name _ => hedit.sources name
  obtain ⟨output, _, houtput, htwice, _⟩ :=
    hspelled'.edited hnext.spells fun name _ => hnext.sources name
  obtain ⟨output', _, houtput', honce, _⟩ :=
    hspelled.edited hboth.spells fun name _ => hboth.sources name
  have hsame : output = output' := by
    rw [← String.toList_inj, htwice.text, honce.text, List.map_map]
    congr 1
    exact List.map_congr_left fun lexeme _ => edited_edited edit next lexeme
  exact ⟨middle, output, hmiddle, houtput, hsame ▸ houtput'⟩

abbrev stringFor (old new : String) : LiteralEdit :=
  replacing (.string old) (quote new) (.string new)

theorem stringFor_twice (old new : String) :
    (stringFor old new).andThen (stringFor old new) = stringFor old new := by
  funext value
  unfold LiteralEdit.andThen stringFor replacing
  by_cases hvalue : value = .string old
  · rw [if_pos hvalue]
    dsimp only
    split <;> rfl
  · rw [if_neg hvalue]

theorem stringEdit_concat (table : List (String × String)) (old new : String) (value : Literal) :
    stringEdit (table ++ [(old, new)]) value =
      if value = .string old then some (quote new, .string new) else stringEdit table value := by
  cases value with
  | string other =>
    dsimp only [stringEdit, replacementFor]
    rw [List.reverse_concat, List.find?_cons]
    by_cases hsame : old = other
    · rw [if_pos (congrArg Literal.string hsame.symm), beq_iff_eq.mpr hsame]
      rfl
    · rw [if_neg fun h => hsame (Literal.string.inj h).symm, beq_false_of_ne hsame]
  | integer | boolean | null => rfl

theorem stringEdit_pair (first new second new' : String) (value : Literal) :
    stringEdit [(first, new), (second, new')] value =
      if value = .string second then some (quote new', .string new')
      else if value = .string first then some (quote new, .string new) else none := by
  rw [← stringEdit_nil value, ← stringEdit_concat, ← stringEdit_concat]
  rfl

section Pairs

variable {first second new new' : String} (hapart : first ≠ second)

include hapart

theorem stringEdit_swap :
    stringEdit [(first, new), (second, new')] = stringEdit [(second, new'), (first, new)] := by
  funext value
  rw [stringEdit_pair, stringEdit_pair]
  by_cases hfirst : value = .string first
  · have hsecond : value ≠ .string second := fun h =>
      hapart (Literal.string.inj (hfirst.symm.trans h))
    rw [if_neg hsecond, if_pos hfirst, if_pos hfirst]
  · simp [hfirst]

theorem stringFor_andThen (hnew : new ≠ second) :
    (stringFor first new).andThen (stringFor second new') =
      stringEdit [(first, new), (second, new')] := by
  funext value
  rw [stringEdit_pair]
  unfold LiteralEdit.andThen stringFor replacing
  by_cases hfirst : value = .string first
  · simp [hfirst, hapart, hnew]
  · simp [hfirst]

end Pairs

/-- Replacing a string once more gives the same text. Two replacements that do not touch each other's
strings give the same text in either order, and so does the table of both. -/
theorem string_replacements_compose (hparse : parseText source = .ok program) :
    (∀ old new, ∃ output, replaceString old new source = .ok output ∧
      replaceString old new output = .ok output) ∧
    ∀ first new second new', first ≠ second → new ≠ second → new' ≠ first →
      ∃ left right output, replaceString first new source = .ok left ∧
        replaceString second new' left = .ok output ∧
        replaceString second new' source = .ok right ∧
        replaceString first new right = .ok output ∧
        replaceStrings [(first, new), (second, new')] source = .ok output ∧
        replaceStrings [(second, new'), (first, new)] source = .ok output := by
  constructor
  · intro old new
    have hquotes := quotes_replacing old new
    obtain ⟨middle, output, hmiddle, houtput, honce⟩ := editing_andThen hparse hquotes hquotes
    rw [stringFor_twice, hmiddle] at honce
    obtain rfl := Except.ok.inj honce
    rw [replaceString_eq]
    exact ⟨middle, hmiddle, houtput⟩
  · intro first new second new' hapart hnew hnew'
    obtain ⟨left, output, hleft, houtput, htable⟩ :=
      editing_andThen hparse (quotes_replacing first new) (quotes_replacing second new')
    obtain ⟨right, output', hright, houtput', htable'⟩ :=
      editing_andThen hparse (quotes_replacing second new') (quotes_replacing first new)
    rw [stringFor_andThen hapart hnew] at htable
    rw [stringFor_andThen hapart.symm hnew'] at htable'
    have hswap : stringEdit [(first, new), (second, new')] =
        stringEdit [(second, new'), (first, new)] := stringEdit_swap hapart
    rw [hswap, htable'] at htable
    obtain rfl := Except.ok.inj htable
    rw [replaceString_eq, replaceString_eq, replaceStrings_eq, replaceStrings_eq, hswap]
    exact ⟨left, right, output', hleft, houtput, hright, houtput', htable', htable'⟩

def tabbedSource : String := "let a=\"\t\";export b = \"p\";"

theorem string_replacements_compose_tabbed : ∃ program, parseText tabbedSource = .ok program ∧
    (∃ output, replaceString "\t" "\t" tabbedSource = .ok output ∧
      output = "let a=\"\\t\";export b = \"p\";" ∧ replaceString "\t" "\t" output = .ok output) ∧
    "p" ≠ "\t" ∧ "\"" ≠ "\t" ∧ "q" ≠ "p" ∧
    ∃ left right output, replaceString "p" "\"" tabbedSource = .ok left ∧
      replaceString "\t" "q" left = .ok output ∧
      replaceString "\t" "q" tabbedSource = .ok right ∧
      replaceString "p" "\"" right = .ok output ∧
      replaceStrings [("p", "\""), ("\t", "q")] tabbedSource = .ok output ∧
      output = "let a=\"q\";export b = \"\\\"\";" := by
  have hparses : (parseText tabbedSource).isOk = true := by decide +kernel
  have hescaped : (replaceString "\t" "\t" tabbedSource).toOption =
      some "let a=\"\\t\";export b = \"p\";" := by decide +kernel
  have hboth : (replaceStrings [("p", "\""), ("\t", "q")] tabbedSource).toOption =
      some "let a=\"q\";export b = \"\\\"\";" := by decide +kernel
  have hapart : "p" ≠ "\t" := by decide
  have hnew : "\"" ≠ "\t" := by decide
  have hnew' : "q" ≠ "p" := by decide
  rcases hparse : parseText tabbedSource with cause | program
  all_goals rw [hparse] at hparses
  · cases hparses
  · obtain ⟨htwice, hpairs⟩ := string_replacements_compose hparse
    obtain ⟨output, honce, hagain⟩ := htwice "\t" "\t"
    obtain ⟨left, right, output', hleft, hleft', hright, hright', htable, _⟩ :=
      hpairs "p" "\"" "\t" "q" hapart hnew hnew'
    rw [honce] at hescaped
    rw [htable] at hboth
    exact ⟨program, rfl, ⟨output, honce, Option.some.inj hescaped, hagain⟩, hapart, hnew, hnew',
      left, right, output', hleft, hleft', hright, hright', htable, Option.some.inj hboth⟩

end Interpose.Edit
