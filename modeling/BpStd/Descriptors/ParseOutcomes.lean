import BpStd.Descriptors.Compile

/-!
Contract: where the parsers of `descriptors/src/compiler/compile.rs` panic, over every
tokenizer and every text.

Owns: the exact panic condition of each parser body (`parseKeyForm`, `ShWpkh`,
`parse_multi_form`, `parse_tr_form`, `TrScript`) in terms of the call the tokenizer
returns, the outcome of `TrScript::from_str` on every call, and from them the panics of
`Tr::from_str` and of `StdDescr::from_str` on a text starting with `tr`.  Every
`unreachable!()` these parsers reach follows a call `check_forms` accepted one argument
short, except `TrScript`'s, which also follows every full `tr(KEY,TREE)`: it pops the
key where the tree is.

Does not own: the tokenizer, a parameter; the texts a parser succeeds on, which
`RoundTrip` states for the texts descriptors write.
-/

namespace BpStd.Descriptors

open BpStd.Rust

variable {K ε : Type} (tokenize : List Char → Except (DescrParseError ε) (ScriptExpr K))

/-! ## The parser bodies -/

theorem parseKeyForm_eq_panic_iff {ident : String} {s : List Char} :
    parseKeyForm tokenize ident s = .panic ↔ tokenize s = .ok (.mk ident []) := by
  simp only [parseKeyForm, Outcome.bind_eq_panic, Outcome.ofExcept_ne_panic, checkFormsOr_ne_panic,
    false_or, Outcome.ofExcept_eq_ok, checkFormsOr_eq_ok, checkForms_key_iff]
  constructor
  · rintro ⟨_, tokenized, _, ⟨rfl, rfl | ⟨key, rfl⟩⟩, panics⟩
    · exact tokenized
    · cases panics
  · intro tokenized
    exact ⟨_, tokenized, [], ⟨rfl, .inl rfl⟩, rfl⟩

theorem parseKeyForm_eq_ok_iff {ident : String} {s : List Char} {key : K} :
    parseKeyForm tokenize ident s = .ok key ↔ tokenize s = .ok (.mk ident [.key key]) := by
  simp only [parseKeyForm, Outcome.bind_eq_ok, Outcome.ofExcept_eq_ok, checkFormsOr_eq_ok,
    checkForms_key_iff]
  constructor
  · rintro ⟨_, tokenized, _, ⟨rfl, rfl | ⟨key, rfl⟩⟩, parsed⟩
    · cases parsed
    · cases parsed
      exact tokenized
  · intro tokenized
    exact ⟨_, tokenized, _, ⟨rfl, .inr ⟨key, rfl⟩⟩, rfl⟩

theorem shWpkh_fromStr_eq_panic_iff {s : List Char} :
    ShWpkh.fromStr tokenize s = .panic ↔ tokenize s = .ok (.mk "sh" []) ∨
      tokenize s = .ok (.mk "sh" [.script (.mk "wpkh" [])]) := by
  simp only [ShWpkh.fromStr, Outcome.bind_eq_panic, Outcome.ofExcept_ne_panic,
    checkFormsOr_ne_panic, false_or, Outcome.ofExcept_eq_ok, checkFormsOr_eq_ok,
    checkForms_script_iff]
  constructor
  · rintro ⟨_, tokenized, _, ⟨rfl, rfl | ⟨inner, rfl⟩⟩, panics⟩
    · exact .inl tokenized
    · simp only [List.getLast?_singleton, Outcome.bind_eq_panic, checkFormsOr_ne_panic, false_or,
        checkFormsOr_eq_ok, checkForms_key_iff] at panics
      obtain ⟨_, ⟨rfl, rfl | ⟨key, rfl⟩⟩, panics⟩ := panics
      · exact .inr tokenized
      · cases panics
  · rintro (tokenized | tokenized)
    · exact ⟨_, tokenized, [], ⟨rfl, .inl rfl⟩, rfl⟩
    · exact ⟨_, tokenized, _, ⟨rfl, .inr ⟨_, rfl⟩⟩, rfl⟩

theorem parseMultiForm_eq_panic_iff {s : List Char} {outer : String} {medium : Option String}
    {inner : String} :
    parseMultiForm tokenize s outer medium inner = .panic ↔ tokenize s = .ok (.mk outer []) ∨
      ∃ name, medium = some name ∧ tokenize s = .ok (.mk outer [.script (.mk name [])]) := by
  simp only [parseMultiForm, Outcome.bind_eq_panic, Outcome.ofExcept_ne_panic,
    checkFormsOr_ne_panic, false_or, Outcome.ofExcept_eq_ok, checkFormsOr_eq_ok,
    checkForms_script_iff]
  constructor
  · rintro ⟨_, tokenized, _, ⟨rfl, rfl | ⟨script, rfl⟩⟩, panics⟩
    · exact .inl tokenized
    · cases medium with
      | none => exact absurd panics (checkFormsOr_parseThresholdKeys_ne_panic _ _ _ _)
      | some name =>
        simp only [List.getLast?_singleton, Outcome.bind_eq_panic, checkFormsOr_ne_panic, false_or,
          checkFormsOr_eq_ok, checkForms_script_iff] at panics
        obtain ⟨_, ⟨rfl, rfl | ⟨script, rfl⟩⟩, panics⟩ := panics
        · exact .inr ⟨name, rfl, tokenized⟩
        · exact absurd panics (checkFormsOr_parseThresholdKeys_ne_panic _ _ _ _)
  · rintro (tokenized | ⟨name, rfl, tokenized⟩)
    · exact ⟨_, tokenized, [], ⟨rfl, .inl rfl⟩, rfl⟩
    · have short : checkForms (.mk name [] : ScriptExpr K) name [.script] = some [] :=
        checkForms_script_iff.mpr ⟨rfl, .inl rfl⟩
      refine ⟨_, tokenized, _, ⟨rfl, .inr ⟨_, rfl⟩⟩, ?_⟩
      simp only [List.getLast?_singleton, checkFormsOr, short, Outcome.ofOption_some,
        Outcome.ok_bind, List.getLast?_nil, Outcome.panic_bind]

theorem parseTrForm_eq_panic_iff {s : List Char} {inner : String} :
    parseTrForm tokenize s inner = .panic ↔ ∃ key, tokenize s = .ok (.mk "tr" [.key key]) := by
  simp only [parseTrForm, Outcome.bind_eq_panic, Outcome.ofExcept_ne_panic,
    checkFormsOr_ne_panic, false_or, Outcome.ofExcept_eq_ok, checkFormsOr_eq_ok,
    checkForms_key_script_iff]
  constructor
  · rintro ⟨_, tokenized, _, ⟨rfl, ⟨key, rfl⟩ | ⟨key, script, rfl⟩⟩, panics⟩
    · exact ⟨key, tokenized⟩
    · simp only [List.getLast?_cons_cons, List.getLast?_singleton, List.dropLast_cons₂,
        List.dropLast_single, Outcome.bind_eq_panic, checkFormsOr_ne_panic, false_or,
        checkFormsOr_eq_ok, checkForms_lit_keys_iff] at panics
      obtain ⟨_, ⟨-, threshold, keys, rfl⟩, panics | ⟨_, -, ⟨⟩⟩⟩ := panics
      exact absurd panics (parseThresholdKeys_ne_panic _ _ _ _)
  · rintro ⟨key, tokenized⟩
    exact ⟨_, tokenized, _, ⟨rfl, .inl ⟨key, rfl⟩⟩, rfl⟩

/-- `TrScript::from_str` ends in `unreachable!()` on every call `check_forms` accepts: the
key is popped where the tree is, or the tree is missing. -/
theorem trScript_fromStr_eq (s : List Char) :
    TrScript.fromStr tokenize s = match tokenize s with
      | .error error => .err error
      | .ok ast => if (checkForms ast "tr" [.key, .tree]).isSome then .panic
          else .err (.invalidArgs "tr") := by
  unfold TrScript.fromStr
  cases tokenize s with
  | error error => rfl
  | ok ast =>
    rcases accepted : checkForms ast "tr" [.key, .tree] with _ | children
    · simp only [Outcome.ofExcept_ok, Outcome.ok_bind, checkFormsOr, accepted,
        Outcome.ofOption_none, Outcome.err_bind]
      rfl
    · obtain ⟨rfl, ⟨key, rfl⟩ | ⟨key, text, rfl⟩⟩ := checkForms_key_tree_iff.mp accepted <;>
        simp only [Outcome.ofExcept_ok, Outcome.ok_bind, checkFormsOr, accepted,
          Outcome.ofOption_some] <;> rfl

theorem trScript_fromStr_eq_panic_iff {s : List Char} :
    TrScript.fromStr tokenize s = .panic ↔ ∃ key, tokenize s = .ok (.mk "tr" [.key key]) ∨
      ∃ text, tokenize s = .ok (.mk "tr" [.key key, .tree text]) := by
  rw [trScript_fromStr_eq]
  cases tokenize s with
  | error error => simp only [reduceCtorEq, exists_false, or_self]
  | ok ast =>
    simp only [Except.ok.injEq]
    constructor
    · intro panics
      split_ifs at panics with accepted
      obtain ⟨children, accepted⟩ := Option.isSome_iff_exists.mp accepted
      obtain ⟨rfl, ⟨key, rfl⟩ | ⟨key, text, rfl⟩⟩ := checkForms_key_tree_iff.mp accepted
      exacts [⟨key, .inl rfl⟩, ⟨key, .inr ⟨text, rfl⟩⟩]
    · rintro ⟨key, rfl | ⟨text, rfl⟩⟩
      · rw [checkForms_key_tree_iff.mpr ⟨rfl, .inl ⟨key, rfl⟩⟩]
        rfl
      · rw [checkForms_key_tree_iff.mpr ⟨rfl, .inr ⟨key, text, rfl⟩⟩]
        rfl

/-! ## `Tr::from_str` and `StdDescr::from_str` -/

/-- `Tr::from_str` panics exactly on `tr()` and on `tr(KEY,TREE)`: the first in
`TrKey::from_str`, the second in `TrScript::from_str`, the parser every script tree reaches. -/
theorem tr_fromStr_eq_panic_iff {s : List Char} :
    Tr.fromStr tokenize s = .panic ↔ tokenize s = .ok (.mk "tr" []) ∨
      ∃ key text, tokenize s = .ok (.mk "tr" [.key key, .tree text]) := by
  -- a call `tr(KEY)` is taken by `TrKey::from_str` before any parser that panics on it
  have keyOnly : ∀ key, tokenize s = .ok (.mk "tr" [.key key]) →
      TrKey.fromStr tokenize s = .ok ⟨key⟩ := fun key tokenized =>
    Outcome.map_eq_ok.mpr ⟨key, (parseKeyForm_eq_ok_iff tokenize).mpr tokenized, rfl⟩
  constructor
  · intro panics
    unfold Tr.fromStr at panics
    split at panics
    · cases panics
    · exact .inl ((parseKeyForm_eq_panic_iff tokenize).mp (Outcome.map_eq_panic.mp ‹_›))
    · rename_i trKey
      split at panics
      · cases panics
      · obtain ⟨key, tokenized⟩ :=
          (parseTrForm_eq_panic_iff tokenize).mp (Outcome.map_eq_panic.mp ‹_›)
        cases (keyOnly key tokenized).symm.trans trKey
      · split at panics
        · cases panics
        · obtain ⟨key, tokenized⟩ :=
            (parseTrForm_eq_panic_iff tokenize).mp (Outcome.map_eq_panic.mp ‹_›)
          cases (keyOnly key tokenized).symm.trans trKey
        · obtain ⟨key, tokenized | ⟨text, tokenized⟩⟩ :=
            (trScript_fromStr_eq_panic_iff tokenize).mp (Outcome.map_eq_panic.mp panics)
          · cases (keyOnly key tokenized).symm.trans trKey
          · exact .inr ⟨key, text, tokenized⟩
  · rintro (tokenized | ⟨key, text, tokenized⟩)
    · simp [Tr.fromStr, TrKey.fromStr, (parseKeyForm_eq_panic_iff tokenize).mpr tokenized]
    · -- `TrKey`, `TrMulti` and `TrSortedMulti` reject the call's shape, so `TrScript` reads it
      have rejectsKey : checkForms (.mk "tr" [.key key, .tree text]) "tr" [.key] = none := rfl
      have rejectsScript :
          checkForms (.mk "tr" [.key key, .tree text]) "tr" [.key, .script] = none := rfl
      simp only [Tr.fromStr, TrKey.fromStr, TrMulti.fromStr, TrSortedMulti.fromStr, parseKeyForm,
        parseTrForm, tokenized, checkFormsOr, rejectsKey, rejectsScript, Outcome.ofExcept_ok,
        Outcome.ok_bind, Outcome.ofOption_none, Outcome.err_bind, Outcome.map_err]
      rw [Outcome.map_eq_panic, trScript_fromStr_eq_panic_iff]
      exact ⟨key, .inr ⟨text, tokenized⟩⟩

/-- A text that starts with `tr` starts with none of the other prefixes, so
`StdDescr::from_str` hands it to `Tr::from_str`. -/
theorem stdDescr_fromStr_of_startsWith_tr {s : List Char}
    (routed : Str.startsWith (Str.trimStart s) "tr".toList = true) :
    StdDescr.fromStr tokenize s = Tr.toStdDescr <$> Tr.fromStr tokenize (Str.trimStart s) := by
  unfold StdDescr.fromStr
  generalize Str.trimStart s = text at routed ⊢
  obtain ⟨rest, rfl⟩ : ∃ rest, text = 't' :: 'r' :: rest := by
    rcases text with _ | ⟨_, _ | ⟨_, rest⟩⟩ <;> simp [Str.startsWith, List.isPrefixOf] at routed
    obtain ⟨rfl, rfl⟩ := routed
    exact ⟨rest, rfl⟩
  simp only [Str.startsWith, List.isPrefixOf]
  rfl

/-- On a text starting with `tr`, `StdDescr::from_str` panics exactly when the tokenizer
reads it as `tr()` or as `tr(KEY,TREE)`: every taproot descriptor with a script tree
ends in `unreachable!()`. -/
theorem stdDescr_fromStr_tr_eq_panic_iff (s : List Char)
    (routed : Str.startsWith (Str.trimStart s) "tr".toList = true) :
    StdDescr.fromStr tokenize s = .panic ↔ tokenize (Str.trimStart s) = .ok (.mk "tr" []) ∨
      ∃ key text, tokenize (Str.trimStart s) = .ok (.mk "tr" [.key key, .tree text]) := by
  rw [stdDescr_fromStr_of_startsWith_tr tokenize routed, Outcome.map_eq_panic,
    tr_fromStr_eq_panic_iff]

/-- `StdDescr::from_str` on `tr(KEY,{KEY})`, as the spec's tokenizer reads it. -/
theorem stdDescr_fromStr_tr_eq_panic_iff_tree :
    ScriptExpr.fromStr DumbKey.fromStr "tr(KEY,{KEY})".toList =
        .ok (.mk "tr" [.key ⟨⟩, .tree "{KEY}"]) ∧
      StdDescr.fromStr (ScriptExpr.fromStr DumbKey.fromStr) "tr(KEY,{KEY})".toList = .panic :=
  have tokenized : ScriptExpr.fromStr DumbKey.fromStr "tr(KEY,{KEY})".toList =
      .ok (.mk "tr" [.key ⟨⟩, .tree "{KEY}"]) := rfl
  ⟨tokenized, (stdDescr_fromStr_tr_eq_panic_iff (ScriptExpr.fromStr DumbKey.fromStr)
    "tr(KEY,{KEY})".toList rfl).mpr (.inr ⟨⟨⟩, "{KEY}", tokenized⟩)⟩

/-! ## Every panic of the parser bodies -/

/-- `TrScript::from_str` never returns its own `NotSupported`: an error it returns is the
tokenizer's or `check_forms`'s. -/
theorem trScript_fromStr_eq_err {s : List Char} {error : DescrParseError ε}
    (failed : TrScript.fromStr tokenize s = .err error) :
    tokenize s = .error error ∨ error = .invalidArgs "tr" := by
  rw [trScript_fromStr_eq] at failed
  split at failed
  · cases failed
    exact .inl ‹_›
  · split_ifs at failed
    cases failed
    exact .inr rfl

/-- Each parser body of `compile.rs` panics exactly on the calls listed: a call one
argument short that `check_forms` let through (`pkh()`, `sh()`, `sh(wsh())`, `tr(KEY)`
for `parse_tr_form`), and, for `TrScript::from_str`, also every full `tr(KEY,TREE)`,
which is why that parser never reaches its `NotSupported`. -/
theorem compile_parsers_panic_iff :
    (∀ ident s, parseKeyForm tokenize ident s = .panic ↔ tokenize s = .ok (.mk ident [])) ∧
    (∀ s, ShWpkh.fromStr tokenize s = .panic ↔ tokenize s = .ok (.mk "sh" []) ∨
      tokenize s = .ok (.mk "sh" [.script (.mk "wpkh" [])])) ∧
    (∀ s outer medium inner, parseMultiForm tokenize s outer medium inner = .panic ↔
      tokenize s = .ok (.mk outer []) ∨
        ∃ name, medium = some name ∧ tokenize s = .ok (.mk outer [.script (.mk name [])])) ∧
    (∀ s inner, parseTrForm tokenize s inner = .panic ↔
      ∃ key, tokenize s = .ok (.mk "tr" [.key key])) ∧
    (∀ s, TrScript.fromStr tokenize s = .panic ↔ ∃ key,
      tokenize s = .ok (.mk "tr" [.key key]) ∨
        ∃ text, tokenize s = .ok (.mk "tr" [.key key, .tree text])) ∧
    ∀ s error, TrScript.fromStr tokenize s = .err error →
      tokenize s = .error error ∨ error = .invalidArgs "tr" :=
  ⟨fun _ _ => parseKeyForm_eq_panic_iff tokenize, fun _ => shWpkh_fromStr_eq_panic_iff tokenize,
    fun _ _ _ _ => parseMultiForm_eq_panic_iff tokenize,
    fun _ _ => parseTrForm_eq_panic_iff tokenize, fun _ => trScript_fromStr_eq_panic_iff tokenize,
    fun _ _ => trScript_fromStr_eq_err tokenize⟩

end BpStd.Descriptors
