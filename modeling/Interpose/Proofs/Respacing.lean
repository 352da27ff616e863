import Interpose.Proofs.Exchange
import Interpose.Proofs.JoinedLines
import Interpose.Proofs.Retext
import Interpose.Proofs.SideBySide

set_option autoImplicit false

namespace Interpose
open Script

namespace Script

/-- Both texts can be read, and as the same tokens but for where these stand. -/
def SameTokens (text text' : String) : Prop :=
  ∃ tokens tokens', tokenize text = .ok tokens ∧ tokenize text' = .ok tokens' ∧
    tokens.map Token.kind = tokens'.map Token.kind

theorem SameTokens.self {text text' : String} (h : SameTokens text text') :
    SameTokens text' text' := by
  obtain ⟨_, tokens', _, htokens', _⟩ := h
  exact ⟨tokens', tokens', htokens', htokens', rfl⟩

def kindsOf (text : String) : Option (List TokenKind) :=
  (tokenize text).toOption.map (List.map Token.kind)

theorem sameTokens_iff {text text' : String} :
    SameTokens text text' ↔ (kindsOf text).isSome = true ∧ kindsOf text = kindsOf text' := by
  unfold SameTokens kindsOf
  rcases tokenize text with error | tokens <;> rcases tokenize text' with error' | tokens' <;>
    simp [Except.toOption]

instance (text text' : String) : Decidable (SameTokens text text') :=
  decidable_of_iff _ sameTokens_iff.symm

def outline (move : Position → Position) (text : String) : Except ParseError (List Stmt) :=
  ((parseText text).map fun program => program.statements.map (Stmt.moved move)).mapError
    (ParseError.moved move)

theorem Ident.name_eq_of_moved {move : Position → Position} {name name' : Ident}
    (h : name.moved move = name'.moved move) : name.name = name'.name := by
  have hnames := congrArg Ident.name h
  exact hnames

section Outline

variable {move : Position → Position} {text text' : String}

theorem outline_of_tokenize {tokens : List Token} (h : tokenize text = .ok tokens) :
    outline move text = (statements (tokens.map (Token.moved move))).1 := by
  have hmoved : statements (tokens.map (Token.moved move)) = _ :=
    (relocates_statements tokens (hasEnd_of_tokenize h)).1
  rw [hmoved]
  rw [outline, parseText, h]
  dsimp only
  rw [parse, parseProgram]
  rcases statements tokens with ⟨error | stmts, rest⟩ <;> rfl

/-- Where all places are moved to one, nothing is left of where the tokens stood. -/
theorem outline_eq (h : SameTokens text text') (place : Position) :
    outline (fun _ => place) text = outline (fun _ => place) text' := by
  obtain ⟨tokens, tokens', htokens, htokens', hkinds⟩ := h
  have hmoved : ∀ tokens : List Token, tokens.map (Token.moved fun _ => place) =
      (tokens.map Token.kind).map fun kind => ⟨kind, place, place⟩ := by
    intro tokens
    rw [List.map_map]
    rfl
  rw [outline_of_tokenize htokens, outline_of_tokenize htokens', hmoved, hmoved, hkinds]

theorem outline_ok {stmts : List Stmt} (h : outline move text = .ok stmts) :
    ∃ program, parseText text = .ok program ∧ program.statements.map (Stmt.moved move) = stmts := by
  unfold outline at h
  rcases hparse : parseText text with cause | program
  all_goals rw [hparse] at h
  · cases h
  · exact ⟨program, rfl, Except.ok.inj h⟩

theorem outline_error {error : ParseError} (h : outline move text = .error error) :
    ∃ cause, parseText text = .error cause ∧ cause.moved move = error := by
  unfold outline at h
  rcases hparse : parseText text with cause | program
  all_goals rw [hparse] at h
  · exact ⟨cause, rfl, Except.error.inj h⟩
  · cases h

end Outline

end Script

def ModuleError.moved (move : FilePath → Position → Position) : ModuleError → ModuleError
  | .parse path cause => .parse path (cause.moved (move path))
  | .evaluate path (.undefined name position) =>
    .evaluate path (.undefined name (move path position))
  | other => other

def Halt.moved (move : FilePath → Position → Position) : Halt ModuleError → Halt ModuleError
  | .error cause => .error (cause.moved move)
  | .panic message => .panic message

section Evaluation

variable {marks : String → String} {move : FilePath → Position → Position} {path : FilePath}

theorem evalExpr_moved (scope : Scope) (expr : Expr) :
    evalExpr path (Value.exchangedAll id marks scope) (expr.moved (move path)) =
      ((evalExpr path scope expr).map (Value.exchanged id marks)).mapError
        (ModuleError.moved move) := by
  induction expr with
  | literal value span => cases value <;> rfl
  | identifier name =>
    rw [Expr.moved, evalExpr, evalExpr, Ident.moved, Value.lookup_exchangedAll]
    cases scope.lookup name.name <;> rfl
  | member object property span ih =>
    rw [Expr.moved, evalExpr, evalExpr, ih, Ident.moved]
    rcases evalExpr path scope object with error | value
    · rfl
    cases value with
    | module inner =>
      obtain ⟨name, exports, mark⟩ := inner
      have hexport : (Value.exchangedAll id marks exports).lookup property.name =
          (exports.lookup property.name).map (Value.exchanged id marks) :=
        Value.lookup_exchangedAll property.name exports
      dsimp only [Except.map, Except.mapError, Value.exchanged, ModuleOf.get?]
      rw [hexport]
      cases exports.lookup property.name <;> rfl
    | null | boolean _ | integer _ | string _ => rfl

end Evaluation

/-- Two native loads. Modules are alike if they are the same up to what counts as one of their
fingerprints, and so are errors up to places that are moved to one. -/
def Pairing.respaced (layout : Layout) (marks : String → String)
    (move : FilePath → Position → Position) : Pairing where
  layout := layout
  stage := .native
  stage' := .native
  modules module module' := module.exchanged id marks = module'.exchanged id marks
  halts halt halt' := halt.moved move = halt'.moved move

namespace Load

section Respaced

variable {layout : Layout} {marks : String → String} {move : FilePath → Position → Position}
  {path : FilePath}

/-- What an evaluation does next, where two expressions differ in their places. -/
theorem respaced_evalExpr {results : Exports → Exports → Prop} {expr expr' : Expr}
    {scope scope' : Scope} {next next' : Value → Load Exports}
    (hexpr : expr.moved (move path) = expr'.moved (move path))
    (hscope : Value.exchangedAll id marks scope = Value.exchangedAll id marks scope')
    (hnext : ∀ value value', value.exchanged id marks = value'.exchanged id marks →
      Pairs (.respaced layout marks move) results (next value) (next' value')) :
    Pairs (.respaced layout marks move) results
      (match evalExpr path scope expr with
        | .ok value => next value
        | .error error => throw (.error error))
      (match evalExpr path scope' expr' with
        | .ok value => next' value
        | .error error => throw (.error error)) := by
  have hvalues : evalExpr path (Value.exchangedAll id marks scope) (expr.moved (move path)) = _ :=
    evalExpr_moved scope expr
  rw [hexpr, hscope, evalExpr_moved] at hvalues
  generalize evalExpr path scope expr = answer, evalExpr path scope' expr' = answer' at hvalues ⊢
  rcases answer with error | value <;> rcases answer' with error' | value'
  · exact pairs_throw (congrArg Halt.error (Except.error.inj hvalues).symm)
  · cases hvalues
  · cases hvalues
  · exact hnext value value' (Except.ok.inj hvalues).symm

theorem respaced_evaluate {require require' : String → Load Module} {stmts stmts' : List Stmt}
    (hstmts : stmts.map (Stmt.moved (move path)) = stmts'.map (Stmt.moved (move path)))
    (hrequire : ∀ specifier,
      Pairing.Loads (.respaced layout marks move) (require specifier) (require' specifier))
    {scope scope' : Scope} {exports exports' : Exports}
    (hscope : Value.exchangedAll id marks scope = Value.exchangedAll id marks scope')
    (hexports : Value.exchangedAll id marks exports = Value.exchangedAll id marks exports') :
    Pairs (.respaced layout marks move)
      (fun exports exports' =>
        Value.exchangedAll id marks exports = Value.exchangedAll id marks exports')
      (evaluate (m := StateM LoadState) path require stmts scope exports)
      (evaluate (m := StateM LoadState) path require' stmts' scope' exports') := by
  -- by induction on the statements, which are of the same kinds one by one
  induction stmts generalizing stmts' scope scope' exports exports' with
  | nil =>
    rw [List.map_nil, eq_comm, List.map_eq_nil_iff] at hstmts
    subst hstmts
    exact pairs_pure hexports
  | cons stmt rest ih =>
    obtain ⟨stmt', rest', rfl, hstmt, hrest⟩ := List.map_eq_cons_iff.mp hstmts.symm
    have hbound : ∀ {name name' : Ident} {value value' : Value},
        name'.moved (move path) = name.moved (move path) →
        value.exchanged id marks = value'.exchanged id marks →
          Value.exchangedAll id marks ((name.name, value) :: scope) =
            Value.exchangedAll id marks ((name'.name, value') :: scope') := by
      intro name name' value value' hname hvalue
      rw [Value.exchangedAll_cons, Value.exchangedAll_cons, hvalue, hscope,
        Ident.name_eq_of_moved hname]
    cases stmt with
    | imports name source span =>
      cases stmt' with
      | imports name' source' span' =>
        obtain ⟨hname, hsource, _⟩ := Stmt.imports.inj hstmt
        have hspecifier := congrArg ModuleName.value hsource
        change source'.value = source.value at hspecifier
        simp only [evaluate, hspecifier]
        refine (hrequire source.value).bind fun module module' hmodule => ?_
        exact ih hrest.symm (hbound hname (congrArg Value.module hmodule)) hexports
      | binds | exports => cases hstmt
    | binds name value span =>
      cases stmt' with
      | binds name' value' span' =>
        obtain ⟨hname, hvalue, _⟩ := Stmt.binds.inj hstmt
        refine respaced_evalExpr hvalue.symm hscope fun result result' hresult => ?_
        exact ih hrest.symm (hbound hname hresult) hexports
      | imports | exports => cases hstmt
    | exports name value span =>
      cases stmt' with
      | exports name' value' span' =>
        obtain ⟨hname, hvalue, _⟩ := Stmt.exports.inj hstmt
        refine respaced_evalExpr hvalue.symm hscope fun result result' hresult => ?_
        refine ih hrest.symm (hbound hname hresult) ?_
        rw [Value.exchangedAll_insert, Value.exchangedAll_insert, hresult, hexports,
          Ident.name_eq_of_moved hname]
      | imports | binds => cases hstmt

/-- Modules that two texts come to: their exports are alike, and each has the fingerprint of its text. -/
inductive MadeAlike (marks : String → String) (path : FilePath) (text text' : String) :
    Module → Module → Prop where
  | made {exports exports' : Exports}
      (alike : Value.exchangedAll id marks exports = Value.exchangedAll id marks exports') :
      MadeAlike marks path text text' ⟨path, exports, fingerprint text⟩
        ⟨path, exports', fingerprint text'⟩

theorem respaced_compileNative {require require' : FilePath → String → Load Module}
    {text text' : String} (houtline : outline (move path) text = outline (move path) text')
    (hrequire : ∀ importer specifier, Pairing.Loads (.respaced layout marks move)
      (require importer specifier) (require' importer specifier))
    (requester : Option FilePath) :
    Pairs (.respaced layout marks move) (MadeAlike marks path text text')
      (compileNative (m := StateM LoadState) require ⟨text, path, requester⟩)
      (compileNative (m := StateM LoadState) require' ⟨text', path, requester⟩) := by
  unfold compileNative
  dsimp only
  cases hread : outline (move path) text' with
  | error error =>
    obtain ⟨cause, hparse, hcause⟩ := outline_error (houtline.trans hread)
    obtain ⟨cause', hparse', hcause'⟩ := outline_error hread
    rw [hparse, hparse']
    refine pairs_throw ?_
    change Halt.error (ModuleError.parse path _) = Halt.error (ModuleError.parse path _)
    rw [hcause, hcause']
  | ok stmts =>
    obtain ⟨program, hparse, hstmts⟩ := outline_ok (houtline.trans hread)
    obtain ⟨program', hparse', hstmts'⟩ := outline_ok hread
    rw [hparse, hparse']
    exact (respaced_evaluate (hstmts.trans hstmts'.symm) (hrequire path) rfl rfl).bind
      fun _ _ halike => pairs_pure (.made halike)

end Respaced

end Load

inductive Content.Respaced (marks : String → String) (move : Position → Position) :
    Option Content → Option Content → Prop where
  | texts {text text' : String} (tree : outline move text = outline move text')
      (mark : marks (fingerprint text) = marks (fingerprint text')) :
      Respaced marks move (some (.text text)) (some (.text text'))
  | unread {content content' : Option Content} (first : ∀ text, content ≠ some (.text text))
      (second : ∀ text, content' ≠ some (.text text)) : Respaced marks move content content'

/-- Trees of files that have the same files under the same paths, but for what does not count in their
texts, keep native loads alike. -/
theorem parallel_respaced {tree tree' : FileTree} {layout : Layout} {marks : String → String}
    {move : FilePath → Position → Position}
    (hresolve : ∀ specifier requester,
      layout.resolve tree' specifier requester = layout.resolve tree specifier requester)
    (hread : ∀ path, Content.Respaced marks (move path) (tree.read path) (tree'.read path)) :
    Pairing.Parallel (.respaced layout marks move) tree tree' where
  cyclic _ := rfl
  notFound _ := rfl
  resolve := hresolve
  compileFile path requester require require' _ hrequire := by
    intro s s' hs
    have hpath := hread path
    generalize hfirst : tree.read path = content at hpath
    generalize hsecond : tree'.read path = content' at hpath
    cases hpath with
    | texts htree hmark =>
      rw [Load.compileFile_native hfirst hs.stage_eq, Load.compileFile_native hsecond hs.stage_eq']
      refine (Load.respaced_compileNative htree hrequire requester).imp ?_ s s' hs
      rintro _ _ ⟨halike⟩
      change ModuleOf.mk _ _ _ = ModuleOf.mk _ _ _
      rw [halike, hmark]
    | unread hnone hnone' =>
      rw [Load.compileFile_unread fun text => hfirst ▸ hnone text,
        Load.compileFile_unread fun text => hsecond ▸ hnone' text]
      exact ⟨.error rfl, hs⟩

end Interpose
