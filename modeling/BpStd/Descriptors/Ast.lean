import Mathlib.Data.List.Forall2

/-!
Contract: the argument forms of `descriptors/src/compiler/compile.rs` and
`check_forms`, the only check the descriptor parsers make on a tokenized call before
they take it apart.

Owns: `DescrExpr` with `check_expr`; the tree the tokenizer builds (`DescrAst`,
`ScriptExpr`), modelled from its uses in `compile.rs` and the spec, since it lives
in `compiler/mod.rs` outside `src/`; and `checkForms`, which keeps the iterator
protocol of `Zip`: `zip` takes the next form element before the next child, so a
call one argument short leaves no form element behind (`checkForms_one_short`).
Against it, `MatchesForm`, the arity the spec gives a form, and the exact acceptance
condition of `check_forms` in its terms (`checkForms_eq_some_iff`), specialised to the
forms `compile.rs` uses.

Does not own: the tokenizer `ScriptExpr::from_str`, a parameter of every parser.
-/

namespace BpStd.Descriptors

/-- `DescrExpr`: what an argument position of a form accepts. -/
inductive DescrExpr where
  | script
  | lit
  | key
  | tree
  | variadicKey
  | variadicLit
deriving Repr, DecidableEq

mutual

/-- Modelled from the spec: `DescrAst`, one argument of a call.  The text and span the tokenizer records beside
a key or a literal are never read by `compile.rs` and are left out. -/
inductive DescrAst (K : Type) where
  | script (expr : ScriptExpr K)
  | tree (text : String)
  | key (key : K)
  | lit (text : String)

/-- Modelled from the spec: `ScriptExpr`, a call `name(children…)`. -/
inductive ScriptExpr (K : Type) where
  | mk (name : String) (children : List (DescrAst K))

end

variable {K : Type}

def ScriptExpr.name : ScriptExpr K → String
  | .mk name _ => name

def ScriptExpr.children : ScriptExpr K → List (DescrAst K)
  | .mk _ children => children

/-- `DescrExpr::check_expr`. -/
def DescrExpr.checkExpr : DescrExpr → DescrAst K → Bool
  | .lit, .lit _ | .variadicLit, .lit _ => true
  | .key, .key _ | .variadicKey, .key _ => true
  | .script, .script _ => true
  | .tree, .tree _ => true
  | _, _ => false

/-- `iter1.by_ref().zip(iter2.by_ref()).any(|(a, b)| !a.check_expr(b))`, returning the
answer and what is left of both iterators.  `Zip::next` pulls a form element before a
child, so when the children run out first one form element is consumed without a
partner; `any` stops after the first failing pair. -/
def zipAny : List DescrExpr → List (DescrAst K) → Bool × List DescrExpr × List (DescrAst K)
  | [], children => (false, [], children)
  | _ :: form, [] => (false, form, [])
  | expr :: form, child :: children =>
      if !expr.checkExpr child then (true, form, children) else zipAny form children

/-- `check_forms`. -/
def checkForms (ast : ScriptExpr K) (ident : String) (form : List DescrExpr) :
    Option (List (DescrAst K)) :=
  if ast.name ≠ ident then none
  else
    match zipAny form ast.children with
    | (true, _, _) => none
    | (false, restForm, restChildren) =>
        if restForm.length > 0 then none
        else if form.getLast? = some .variadicKey then
          if restChildren.any fun child => !DescrExpr.key.checkExpr child then none
          else some ast.children
        else if form.getLast? = some .variadicLit then
          if restChildren.any fun child => !DescrExpr.lit.checkExpr child then none
          else some ast.children
        else if restChildren.length > 0 then none
        else some ast.children

/-- Children that match a form prefix element by element leave `zip` with the form
element after that prefix consumed. -/
theorem zipAny_runs_out {pre : List DescrExpr} {children : List (DescrAst K)}
    (matched : List.Forall₂ (fun expr child => expr.checkExpr child = true) pre children)
    (next : DescrExpr) (rest : List DescrExpr) :
    zipAny (pre ++ next :: rest) children = (false, rest, []) := by
  induction matched with
  | nil => rfl
  | cons checked _ inductionHypothesis => simp [zipAny, checked, inductionHypothesis]

/-- `check_forms` accepts a call one argument short of a form that does not end in a
variadic element, as long as the arguments it has match. -/
theorem checkForms_one_short {ident : String} {pre : List DescrExpr}
    {children : List (DescrAst K)}
    (matched : List.Forall₂ (fun expr child => expr.checkExpr child = true) pre children)
    {last : DescrExpr} (notKeys : last ≠ .variadicKey) (notLits : last ≠ .variadicLit) :
    checkForms (.mk ident children) ident (pre ++ [last]) = some children := by
  simp [checkForms, ScriptExpr.name, ScriptExpr.children, zipAny_runs_out matched,
    List.getLast?_append, notKeys, notLits]

/-! ## What `check_forms` accepts

The spec's reading of a form, `MatchesForm`, against the code's: `zip` either uses up the
form (the children left must be keys, literals or nothing, as the last element asks) or
runs out of children one form element early, and both are accepted. -/

/-- What a child past the fixed part of a form must be: a `Key` after a form ending in
`VariadicKey`, a `Lit` after one ending in `VariadicLit`, and nothing after any other. -/
def variadicOf : Option DescrExpr → Option DescrExpr
  | some .variadicKey => some .key
  | some .variadicLit => some .lit
  | _ => none

/-- The children `check_forms` leaves after the form: each must be what `variadicOf` of
the form's last element asks for, and there are none when it asks for nothing. -/
def RestAccepted : Option DescrExpr → List (DescrAst K) → Prop
  | some each, rest => ∀ child ∈ rest, each.checkExpr child = true
  | none, rest => rest = []

/-- Modelled from the spec: the children a form describes.  A form ending in a variadic
element takes its other elements pointwise and then any number of keys (or literals); any
other form takes exactly one child per element. -/
def MatchesForm (form : List DescrExpr) (children : List (DescrAst K)) : Prop :=
  match variadicOf form.getLast? with
  | some each => ∃ fixed rest, children = fixed ++ rest ∧
      List.Forall₂ (fun expr child => expr.checkExpr child = true) form.dropLast fixed ∧
      ∀ child ∈ rest, each.checkExpr child = true
  | none => List.Forall₂ (fun expr child => expr.checkExpr child = true) form children

theorem checkExpr_of_variadicOf {last each : DescrExpr}
    (variadic : variadicOf (some last) = some each)
    (child : DescrAst K) : last.checkExpr child = each.checkExpr child := by
  cases last <;> cases variadic <;> cases child <;> rfl

theorem restAccepted_nil (last : Option DescrExpr) :
    RestAccepted last ([] : List (DescrAst K)) := by
  cases last <;> simp [RestAccepted]

/-- A run of `zip` that found no failing pair either used up the form, leaving the
children after a matched prefix, or ran out of children, having consumed one more form
element than it matched. -/
theorem zipAny_eq_false {form restForm : List DescrExpr} {children restChildren : List (DescrAst K)}
    (zipped : zipAny form children = (false, restForm, restChildren)) :
    (∃ fixed, List.Forall₂ (fun expr child => expr.checkExpr child = true) form fixed ∧
        children = fixed ++ restChildren ∧ restForm = []) ∨
      ∃ pre next, form = pre ++ next :: restForm ∧
        List.Forall₂ (fun expr child => expr.checkExpr child = true) pre children ∧
        restChildren = [] := by
  induction form generalizing children with
  | nil =>
      cases zipped
      exact .inl ⟨[], .nil, rfl, rfl⟩
  | cons expr form inductionHypothesis =>
      cases children with
      | nil =>
          cases zipped
          exact .inr ⟨[], expr, rfl, .nil, rfl⟩
      | cons child children =>
          by_cases checked : expr.checkExpr child = true
          · simp only [zipAny, checked, Bool.not_true, Bool.false_eq_true, if_false] at zipped
            rcases inductionHypothesis zipped with
              ⟨fixed, matched, rfl, rfl⟩ | ⟨pre, next, rfl, matched, rfl⟩
            · exact .inl ⟨child :: fixed, .cons checked matched, rfl, rfl⟩
            · exact .inr ⟨expr :: pre, next, rfl, .cons checked matched, rfl⟩
          · simp [zipAny, checked] at zipped

/-- Children that match the whole form leave `zip` with the children after them. -/
theorem zipAny_append {form : List DescrExpr} {fixed : List (DescrAst K)}
    (matched : List.Forall₂ (fun expr child => expr.checkExpr child = true) form fixed)
    (rest : List (DescrAst K)) : zipAny form (fixed ++ rest) = (false, [], rest) := by
  induction matched with
  | nil => cases rest <;> rfl
  | cons checked _ inductionHypothesis => simp [zipAny, checked, inductionHypothesis]

/-- After a `zip` that used up the form, `check_forms` decides on the children left. -/
theorem checkForms_of_zipAny {ident : String} {form : List DescrExpr}
    {children rest : List (DescrAst K)}
    (zipped : zipAny form children = (false, [], rest)) :
    checkForms (.mk ident children) ident form = some children ↔
      RestAccepted (variadicOf form.getLast?) rest := by
  simp only [checkForms, ScriptExpr.name, ScriptExpr.children, ne_eq, not_true_eq_false, if_false,
    zipped]
  rcases form.getLast? with _ | last
  · simp [variadicOf, RestAccepted]
  · cases last <;> simp [variadicOf, RestAccepted]

theorem forall₂_append_singleton {α β : Type} {R : α → β → Prop} {pre : List α}
    {last : α} {l : List β} (related : List.Forall₂ R (pre ++ [last]) l) :
    ∃ init x, l = init ++ [x] ∧ List.Forall₂ R pre init ∧ R last x := by
  have front := List.forall₂_take pre.length related
  have back := List.forall₂_drop pre.length related
  simp only [List.take_left, List.drop_left] at front back
  rcases List.forall₂_cons_left_iff.mp back with ⟨x, u, checked, rest, split⟩
  rw [List.forall₂_nil_left_iff.mp rest] at split
  exact ⟨_, x, by rw [← split, List.take_append_drop], front, checked⟩

theorem eq_dropLast_append_of_variadicOf {form : List DescrExpr} {each : DescrExpr}
    (variadic : variadicOf form.getLast? = some each) :
    ∃ last, form = form.dropLast ++ [last] ∧ variadicOf (some last) = some each := by
  cases last? : form.getLast? with
  | none => rw [last?] at variadic; cases variadic
  | some last =>
      exact ⟨last, (List.dropLast_append_getLast? last last?).symm, last? ▸ variadic⟩

/-- Children that match a whole form, followed by children `check_forms` accepts after
it, match the form as the spec describes. -/
theorem matchesForm_append {form : List DescrExpr} {fixed rest : List (DescrAst K)}
    (matched : List.Forall₂ (fun expr child => expr.checkExpr child = true) form fixed)
    (accepted : RestAccepted (variadicOf form.getLast?) rest) :
    MatchesForm form (fixed ++ rest) := by
  unfold MatchesForm
  cases variadic : variadicOf form.getLast? with
  | none =>
      rw [variadic] at accepted
      cases accepted
      simpa using matched
  | some each =>
      rw [variadic] at accepted
      obtain ⟨last, split, lastVariadic⟩ := eq_dropLast_append_of_variadicOf variadic
      rw [split] at matched
      obtain ⟨init, x, rfl, front, checked⟩ := forall₂_append_singleton matched
      refine ⟨init, x :: rest, by simp, front, ?_⟩
      rintro child (_ | ⟨_, member⟩)
      · rwa [← checkExpr_of_variadicOf lastVariadic]
      · exact accepted child member

/-- Children that match a form as the spec describes leave `zip` with the form used up
and children `check_forms` accepts. -/
theorem zipAny_of_matchesForm {form : List DescrExpr} {children : List (DescrAst K)}
    (described : MatchesForm form children) :
    ∃ rest, zipAny form children = (false, [], rest) ∧
      RestAccepted (variadicOf form.getLast?) rest := by
  unfold MatchesForm at described
  cases variadic : variadicOf form.getLast? with
  | none =>
      rw [variadic] at described
      exact ⟨[], by simpa using zipAny_append described [], rfl⟩
  | some each =>
      rw [variadic] at described
      obtain ⟨fixed, rest, rfl, front, checked⟩ := described
      obtain ⟨last, split, lastVariadic⟩ := eq_dropLast_append_of_variadicOf variadic
      cases rest with
      | nil =>
          refine ⟨[], ?_, restAccepted_nil _⟩
          rw [List.append_nil, split]
          exact zipAny_runs_out front last []
      | cons x rest =>
          have lastChecked : last.checkExpr x = true := by
            rw [checkExpr_of_variadicOf lastVariadic]
            exact checked x (.head _)
          refine ⟨rest, ?_, fun child member => checked child (.tail _ member)⟩
          rw [List.append_cons, split]
          exact zipAny_append (List.rel_append front (.cons lastChecked .nil)) rest

/-- A call `check_forms` accepts used up the form in `zip` without a failing pair. -/
theorem zipAny_of_checkForms {ident : String} {form : List DescrExpr} {children : List (DescrAst K)}
    (accepted : checkForms (.mk ident children) ident form = some children) :
    ∃ rest, zipAny form children = (false, [], rest) := by
  simp only [checkForms, ScriptExpr.name, ScriptExpr.children, ne_eq, not_true_eq_false, if_false]
    at accepted
  rcases zipped : zipAny form children with ⟨_ | _, _ | ⟨_, _⟩, rest⟩ <;>
    rw [zipped] at accepted
  · exact ⟨rest, rfl⟩
  all_goals simp at accepted

/-- `check_forms` answers `None` or the call's own children. -/
theorem checkForms_eq_some {ast : ScriptExpr K} {ident : String} {form : List DescrExpr}
    {result : List (DescrAst K)} (accepted : checkForms ast ident form = some result) :
    result = ast.children := by
  unfold checkForms at accepted
  split at accepted
  · cases accepted
  · split at accepted <;> (try split_ifs at accepted) <;> cases accepted <;> rfl

/-- The exact acceptance condition of `check_forms`: the call's name, and children that
either match the form as the spec describes or match all of it but its last element. -/
theorem checkForms_eq_some_iff (ast : ScriptExpr K) (ident : String) (form : List DescrExpr) :
    checkForms ast ident form = some ast.children ↔ ast.name = ident ∧
      (MatchesForm form ast.children ∨ ∃ pre last, form = pre ++ [last] ∧
        List.Forall₂ (fun expr child => expr.checkExpr child = true) pre ast.children) := by
  obtain ⟨name, children⟩ := ast
  simp only [ScriptExpr.name, ScriptExpr.children]
  by_cases named : name = ident
  · subst named
    constructor
    · intro accepted
      obtain ⟨rest, zipped⟩ := zipAny_of_checkForms accepted
      have restAccepted := (checkForms_of_zipAny zipped).mp accepted
      rcases zipAny_eq_false zipped with
        ⟨fixed, matched, rfl, -⟩ | ⟨pre, next, rfl, front, rfl⟩
      · exact ⟨rfl, .inl (matchesForm_append matched restAccepted)⟩
      · exact ⟨rfl, .inr ⟨pre, next, rfl, front⟩⟩
    · rintro ⟨-, described | ⟨pre, last, rfl, front⟩⟩
      · obtain ⟨rest, zipped, restAccepted⟩ := zipAny_of_matchesForm described
        exact (checkForms_of_zipAny zipped).mpr restAccepted
      · exact (checkForms_of_zipAny (zipAny_runs_out front last [])).mpr (restAccepted_nil _)
  · simp [checkForms, ScriptExpr.name, named]

/-- A call one argument short of a form that does not end in a variadic element does not
match the form. -/
theorem not_matchesForm_one_short {pre : List DescrExpr} {last : DescrExpr}
    {children : List (DescrAst K)} (notKeys : last ≠ .variadicKey)
    (notLits : last ≠ .variadicLit)
    (front : List.Forall₂ (fun expr child => expr.checkExpr child = true) pre children) :
    ¬ MatchesForm (pre ++ [last]) children := by
  have noVariadic : variadicOf (some last) = none := by cases last <;> simp_all [variadicOf]
  intro described
  rw [MatchesForm, List.getLast?_concat, noVariadic] at described
  have lengths := described.length_eq
  rw [List.length_append, front.length_eq] at lengths
  simp at lengths

theorem checkForms_accepts_one_short :
    (∀ (ast : ScriptExpr K) (ident : String) (form : List DescrExpr),
      (∀ result, checkForms ast ident form = some result → result = ast.children) ∧
      (checkForms ast ident form = some ast.children ↔ ast.name = ident ∧
        (MatchesForm form ast.children ∨ ∃ pre last, form = pre ++ [last] ∧
          List.Forall₂ (fun expr child => expr.checkExpr child = true) pre ast.children))) ∧
    ∀ (ident : String) (pre : List DescrExpr) (last : DescrExpr) (children : List (DescrAst K)),
      last ≠ .variadicKey → last ≠ .variadicLit →
      List.Forall₂ (fun expr child => expr.checkExpr child = true) pre children →
      checkForms (.mk ident children) ident (pre ++ [last]) = some children ∧
        ¬ MatchesForm (pre ++ [last]) children :=
  ⟨fun _ _ _ => ⟨fun _ => checkForms_eq_some, checkForms_eq_some_iff _ _ _⟩,
    fun _ _ _ _ notKeys notLits front =>
      ⟨checkForms_one_short front notKeys notLits,
        not_matchesForm_one_short notKeys notLits front⟩⟩

/-- `tr(KEY)` against the form `[Key, Tree]` of `TrScript::from_str`. -/
theorem checkForms_accepts_one_short_tr_key :
    checkForms (.mk "tr" [.key ()]) "tr" [.key, .tree] = some [.key ()] ∧
      ¬ MatchesForm [.key, .tree] [DescrAst.key ()] :=
  checkForms_accepts_one_short.2 "tr" [.key] .tree [.key ()] (by decide) (by decide)
    (.cons rfl .nil)

/-! ## The forms the parsers use

The acceptance condition of `check_forms` for each form `compile.rs` passes it, as the
call it was given: a form of one or two fixed elements takes all of them or all but
the last, and `[Lit, VariadicKey]` takes a literal and then any number of keys. -/

theorem checkExpr_lit_iff {child : DescrAst K} :
    DescrExpr.lit.checkExpr child = true ↔ ∃ text, .lit text = child := by
  cases child with
  | lit text => exact iff_of_true rfl ⟨text, rfl⟩
  | _ => exact iff_of_false Bool.false_ne_true fun ⟨_, differ⟩ => nomatch differ

theorem checkExpr_key_iff {child : DescrAst K} :
    DescrExpr.key.checkExpr child = true ↔ ∃ key, .key key = child := by
  cases child with
  | key key => exact iff_of_true rfl ⟨key, rfl⟩
  | _ => exact iff_of_false Bool.false_ne_true fun ⟨_, differ⟩ => nomatch differ

theorem checkExpr_script_iff {child : DescrAst K} :
    DescrExpr.script.checkExpr child = true ↔ ∃ script, .script script = child := by
  cases child with
  | script script => exact iff_of_true rfl ⟨script, rfl⟩
  | _ => exact iff_of_false Bool.false_ne_true fun ⟨_, differ⟩ => nomatch differ

theorem checkExpr_tree_iff {child : DescrAst K} :
    DescrExpr.tree.checkExpr child = true ↔ ∃ text, .tree text = child := by
  cases child with
  | tree text => exact iff_of_true rfl ⟨text, rfl⟩
  | _ => exact iff_of_false Bool.false_ne_true fun ⟨_, differ⟩ => nomatch differ

/-- The one-short reading of a form is the form without its last element. -/
theorem exists_eq_append_singleton_iff {α : Type} {form : List α} {P : List α → Prop} :
    (∃ pre last, form = pre ++ [last] ∧ P pre) ↔ form ≠ [] ∧ P form.dropLast := by
  constructor
  · rintro ⟨pre, last, rfl, holds⟩
    simpa using holds
  · rintro ⟨nonempty, holds⟩
    exact ⟨_, _, (List.dropLast_append_getLast nonempty).symm, holds⟩

/-- A form of one element that is not variadic takes that one argument, or none. -/
theorem checkForms_single_iff {ast : ScriptExpr K} {ident : String} {expr : DescrExpr}
    (notKeys : expr ≠ .variadicKey) (notLits : expr ≠ .variadicLit) :
    checkForms ast ident [expr] = some ast.children ↔ ast.name = ident ∧
      (ast.children = [] ∨ ∃ child, expr.checkExpr child = true ∧ ast.children = [child]) := by
  have noVariadic : variadicOf (some expr) = none := by
    cases expr <;> first | rfl | exact absurd rfl ‹_›
  rw [checkForms_eq_some_iff, MatchesForm, List.getLast?_singleton, noVariadic,
    exists_eq_append_singleton_iff]
  refine and_congr_right fun _ => ?_
  rcases ast.children with _ | ⟨child, _ | ⟨next, rest⟩⟩ <;>
    simp only [List.forall₂_cons, List.forall₂_nil_left_iff, List.forall₂_nil_right_iff,
      List.cons.injEq, List.cons_ne_self, List.ne_cons_self, List.dropLast_single, ne_eq,
      reduceCtorEq, not_false_eq_true, and_true, and_false, and_self, or_true, or_false,
      false_or, or_self, exists_false, exists_eq_right']

/-- A form of two elements, the second not variadic, takes both arguments or the first. -/
theorem checkForms_pair_iff {ast : ScriptExpr K} {ident : String} {first second : DescrExpr}
    (notKeys : second ≠ .variadicKey) (notLits : second ≠ .variadicLit) :
    checkForms ast ident [first, second] = some ast.children ↔ ast.name = ident ∧
      ∃ child, first.checkExpr child = true ∧ (ast.children = [child] ∨
        ∃ next, second.checkExpr next = true ∧ ast.children = [child, next]) := by
  have noVariadic : variadicOf (some second) = none := by
    cases second <;> first | rfl | exact absurd rfl ‹_›
  rw [checkForms_eq_some_iff, MatchesForm, List.getLast?_cons_cons, List.getLast?_singleton,
    noVariadic, exists_eq_append_singleton_iff]
  refine and_congr_right fun _ => ?_
  rcases ast.children with _ | ⟨child, _ | ⟨next, _ | ⟨extra, rest⟩⟩⟩ <;>
    simp only [List.forall₂_cons, List.forall₂_nil_left_iff, List.forall₂_nil_right_iff,
      List.cons.injEq, List.cons_ne_self, List.ne_cons_self, List.nil_eq, List.dropLast_cons₂,
      List.dropLast_single, ne_eq, reduceCtorEq, not_false_eq_true, and_true, true_and,
      and_false, false_or, or_self, or_comm, exists_false, exists_eq_right',
      exists_eq_right_right']

/-- Children that are all keys are the keys of some list. -/
theorem exists_map_key {rest : List (DescrAst K)}
    (keys : ∀ child ∈ rest, DescrExpr.key.checkExpr child = true) :
    ∃ found : List K, rest = found.map .key := by
  induction rest with
  | nil => exact ⟨[], rfl⟩
  | cons child rest inductionHypothesis =>
    obtain ⟨key, rfl⟩ := checkExpr_key_iff.mp (keys child (List.mem_cons_self _ _))
    obtain ⟨found, rfl⟩ := inductionHypothesis fun other member => keys other (.tail _ member)
    exact ⟨key :: found, rfl⟩

/-- `[Lit, VariadicKey]` takes a literal and then keys; one short, it takes the literal
alone, which is the same. -/
theorem checkForms_threshold_iff {ast : ScriptExpr K} {ident : String} :
    checkForms ast ident [.lit, .variadicKey] = some ast.children ↔ ast.name = ident ∧
      ∃ (threshold : String) (keys : List K), ast.children = .lit threshold :: keys.map .key := by
  rw [checkForms_eq_some_iff, MatchesForm, exists_eq_append_singleton_iff]
  simp only [List.getLast?_cons_cons, List.getLast?_singleton, variadicOf, List.dropLast_cons₂,
    List.dropLast_single, ne_eq, reduceCtorEq, not_false_eq_true, true_and]
  generalize ast.children = children
  refine and_congr_right fun _ => ⟨?_, ?_⟩
  · rintro (⟨_, rest, rfl, _ | ⟨checked, _ | _⟩, keys⟩ | _ | ⟨checked, _ | _⟩) <;>
      obtain ⟨threshold, rfl⟩ := checkExpr_lit_iff.mp checked
    · obtain ⟨found, rfl⟩ := exists_map_key keys
      exact ⟨threshold, found, rfl⟩
    · exact ⟨threshold, [], rfl⟩
  · rintro ⟨threshold, keys, rfl⟩
    refine .inl ⟨[.lit threshold], keys.map .key, rfl, .cons rfl .nil, fun _ member => ?_⟩
    obtain ⟨_, -, rfl⟩ := List.mem_map.mp member
    rfl

/-- What `check_forms` accepts, as the call it was given. -/
theorem checkForms_eq_some_iff_mk {ident : String} {form : List DescrExpr}
    (described : List (DescrAst K) → Prop) (ast : ScriptExpr K) (children : List (DescrAst K))
    (accepts : ∀ ast : ScriptExpr K, checkForms ast ident form = some ast.children ↔
      ast.name = ident ∧ described ast.children) :
    checkForms ast ident form = some children ↔ ast = .mk ident children ∧ described children := by
  constructor
  · intro accepted
    obtain rfl := checkForms_eq_some accepted
    obtain ⟨named, holds⟩ := (accepts ast).mp accepted
    obtain ⟨name, children⟩ := ast
    exact ⟨by rw [← named]; rfl, holds⟩
  · rintro ⟨rfl, holds⟩
    exact (accepts _).mpr ⟨rfl, holds⟩

theorem checkForms_key_iff {ast : ScriptExpr K} {ident : String} {children : List (DescrAst K)} :
    checkForms ast ident [.key] = some children ↔ ast = .mk ident children ∧
      (children = [] ∨ ∃ key, children = [.key key]) := by
  refine checkForms_eq_some_iff_mk (fun children => children = [] ∨ ∃ key, children = [.key key])
    ast children fun ast => ?_
  rw [checkForms_single_iff (by decide) (by decide)]
  simp only [checkExpr_key_iff, exists_exists_eq_and]

theorem checkForms_script_iff {ast : ScriptExpr K} {ident : String}
    {children : List (DescrAst K)} :
    checkForms ast ident [.script] = some children ↔ ast = .mk ident children ∧
      (children = [] ∨ ∃ script, children = [.script script]) := by
  refine checkForms_eq_some_iff_mk
    (fun children => children = [] ∨ ∃ script, children = [.script script]) ast children
    fun ast => ?_
  rw [checkForms_single_iff (by decide) (by decide)]
  simp only [checkExpr_script_iff, exists_exists_eq_and]

theorem checkForms_key_script_iff {ast : ScriptExpr K} {ident : String}
    {children : List (DescrAst K)} :
    checkForms ast ident [.key, .script] = some children ↔ ast = .mk ident children ∧
      ((∃ key, children = [.key key]) ∨ ∃ key script, children = [.key key, .script script]) := by
  refine checkForms_eq_some_iff_mk (fun children => (∃ key, children = [.key key]) ∨
    ∃ key script, children = [.key key, .script script]) ast children fun ast => ?_
  rw [checkForms_pair_iff (by decide) (by decide)]
  simp only [checkExpr_key_iff, checkExpr_script_iff, exists_exists_eq_and, exists_or]

theorem checkForms_key_tree_iff {ast : ScriptExpr K} {ident : String}
    {children : List (DescrAst K)} :
    checkForms ast ident [.key, .tree] = some children ↔ ast = .mk ident children ∧
      ((∃ key, children = [.key key]) ∨ ∃ key text, children = [.key key, .tree text]) := by
  refine checkForms_eq_some_iff_mk (fun children => (∃ key, children = [.key key]) ∨
    ∃ key text, children = [.key key, .tree text]) ast children fun ast => ?_
  rw [checkForms_pair_iff (by decide) (by decide)]
  simp only [checkExpr_key_iff, checkExpr_tree_iff, exists_exists_eq_and, exists_or]

theorem checkForms_lit_keys_iff {ast : ScriptExpr K} {ident : String}
    {children : List (DescrAst K)} :
    checkForms ast ident [.lit, .variadicKey] = some children ↔ ast = .mk ident children ∧
      ∃ (threshold : String) (keys : List K), children = .lit threshold :: keys.map .key :=
  checkForms_eq_some_iff_mk
    (fun children => ∃ (threshold : String) (keys : List K), children = .lit threshold :: keys.map .key)
    ast children fun _ => checkForms_threshold_iff

theorem checkForms_key_call (ident : String) (key : K) :
    checkForms (.mk ident [.key key]) ident [.key] = some [.key key] :=
  checkForms_key_iff.mpr ⟨rfl, .inr ⟨key, rfl⟩⟩

theorem checkForms_script_call (ident : String) (script : ScriptExpr K) :
    checkForms (.mk ident [.script script]) ident [.script] = some [.script script] :=
  checkForms_script_iff.mpr ⟨rfl, .inr ⟨script, rfl⟩⟩

end BpStd.Descriptors
