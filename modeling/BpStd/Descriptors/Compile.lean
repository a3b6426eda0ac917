import BpStd.Rust.Outcome
import BpStd.Descriptors.Tokenizer

/-!
Contract: the `FromStr` implementations of `descriptors/src/compiler/compile.rs`: the
per-variant parsers, the shared `parse_multi_form` and `parse_tr_form`, and the
dispatchers `Sh`, `Wsh`, `ShWsh`, `Tr` and `StdDescr`.

Owns: each parser as the source writes it, over the tokenizer `tokenize`
(`ScriptExpr::from_str`, outside `src/`, a parameter): tokenize, `check_forms`, then
take the accepted children apart with `pop`, `remove(0)` and `let … else
{ unreachable!() }`, each of which the model turns into a panic when it does not match.

Does not own: the threshold types' parsers, `u4::from_str` and `u16::from_str`, read
as `from_str` of an unsigned integer with maximum 15 and 65535 (`parseUnsigned`).
-/

namespace BpStd.Descriptors

open BpStd.Rust

/-- Modelled from the spec: `amplify::num::u4::from_str`, a decimal below 16. -/
def u4FromStr (text : String) : Except ParseIntError (Fin 16) :=
  (parseUnsigned 15 text.toList).map Fin.ofNat

/-- `u16::from_str`. -/
def u16FromStr (text : String) : Except ParseIntError UInt16 :=
  (parseUnsigned 65535 text.toList).map UInt16.ofNat

/-- `u4::from_str` reads back the decimal text of every `u4`. -/
theorem u4FromStr_repr (threshold : Fin 16) : u4FromStr (Nat.repr threshold) = .ok threshold := by
  rw [u4FromStr, parseUnsigned_repr (Nat.le_of_lt_succ threshold.isLt)]
  exact congrArg Except.ok (Fin.ext (Nat.mod_eq_of_lt threshold.isLt))

/-- `u16::from_str` reads back the decimal text of every `u16`. -/
theorem u16FromStr_repr (threshold : UInt16) :
    u16FromStr (Nat.repr threshold.toNat) = .ok threshold := by
  rw [u16FromStr, parseUnsigned_repr (Nat.le_of_lt_succ threshold.toNat_lt_size)]
  exact congrArg Except.ok (UInt16.toNat.inj (UInt16.toNat_ofNat_of_lt threshold.toNat_lt_size))

section Parsers

variable {K ε : Type} (tokenize : List Char → Except (DescrParseError ε) (ScriptExpr K))

/-- `check_forms(…).ok_or(DescrParseError::InvalidArgs(ident))?`. -/
def checkFormsOr (ast : ScriptExpr K) (ident : String) (form : List DescrExpr) :
    Outcome (DescrParseError ε) (List (DescrAst K)) :=
  Outcome.ofOption (.invalidArgs ident) (checkForms ast ident form)

/-- The body of the key-only parsers `Pkh`, `Wpkh` and `TrKey`: `check_forms(ast, ident,
&[Key])`, then `let Some(DescrAst::Key(key, _)) = form.pop() else { unreachable!() }`. -/
def parseKeyForm (ident : String) (s : List Char) : Outcome (DescrParseError ε) K := do
  let ast ← Outcome.ofExcept (tokenize s)
  let form ← checkFormsOr ast ident [.key]
  let some (.key key) := form.getLast? | .panic
  pure key

/-- `Pkh::from_str`. -/
def Pkh.fromStr (s : List Char) : Outcome (DescrParseError ε) (Pkh K) :=
  Pkh.mk <$> parseKeyForm tokenize "pkh" s

/-- `Wpkh::from_str`. -/
def Wpkh.fromStr (s : List Char) : Outcome (DescrParseError ε) (Wpkh K) :=
  Wpkh.mk <$> parseKeyForm tokenize "wpkh" s

/-- `TrKey::from_str`. -/
def TrKey.fromStr (s : List Char) : Outcome (DescrParseError ε) (TrKey K) :=
  TrKey.mk <$> parseKeyForm tokenize "tr" s

/-- `ShWpkh::from_str`: `sh` around `wpkh`. -/
def ShWpkh.fromStr (s : List Char) : Outcome (DescrParseError ε) (ShWpkh K) := do
  let ast ← Outcome.ofExcept (tokenize s)
  let form ← checkFormsOr ast "sh" [.script]
  let some (.script inner) := form.getLast? | .panic
  let form ← checkFormsOr inner "wpkh" [.key]
  let some (.key key) := form.getLast? | .panic
  pure ⟨key⟩

/-- The tail `parse_multi_form` and `parse_tr_form` share, over the children of the
threshold call: `form.remove(0)` (a panic on an empty vector), the literal threshold
parsed by `parseThreshold`, then the keys, each `let DescrAst::Key(key, _) = el else
{ unreachable!() }`, confined to `1..=maxKeys`. -/
def parseThresholdKeys {T : Type} (parseThreshold : String → Except ParseIntError T)
    (maxKeys : Nat) (form : List (DescrAst K)) :
    Outcome (DescrParseError ε) (T × ConfinedVec K 1 maxKeys) := do
  let first :: rest := form | .panic
  let .lit thresh := first | .panic
  let threshold ← Outcome.ofExcept ((parseThreshold thresh).mapError .threshold)
  let keys ← rest.mapM fun element => match element with
    | .key key => pure key
    | _ => .panic
  let keys ← Outcome.ofExcept ((ConfinedVec.tryFromIter keys).mapError .confinement)
  pure (threshold, keys)

theorem checkFormsOr_ne_panic (ast : ScriptExpr K) (ident : String) (form : List DescrExpr) :
    (checkFormsOr ast ident form : Outcome (DescrParseError ε) _) ≠ .panic :=
  Outcome.ofOption_ne_panic _ _

theorem checkFormsOr_eq_ok {ast : ScriptExpr K} {ident : String} {form : List DescrExpr}
    {children : List (DescrAst K)} :
    (checkFormsOr ast ident form : Outcome (DescrParseError ε) _) = .ok children ↔
      checkForms ast ident form = some children :=
  Outcome.ofOption_eq_ok

/-- Keys taken out one by one, each `let DescrAst::Key(key, _) = el`, are the keys. -/
theorem mapM_map_key {f : DescrAst K → Outcome (DescrParseError ε) K}
    (onKeys : ∀ key, f (.key key) = .ok key) (keys : List K) :
    (keys.map DescrAst.key).mapM f = .ok keys := by
  induction keys with
  | nil => rfl
  | cons key keys inductionHypothesis =>
    rw [List.map_cons, List.mapM_cons, onKeys, inductionHypothesis]
    rfl

/-- Once `check_forms` has accepted `[Lit, VariadicKey]`, neither `remove(0)`, nor the
threshold's `let`, nor a key's `unreachable!()` is reached. -/
theorem parseThresholdKeys_ne_panic {T : Type} (parseThreshold : String → Except ParseIntError T)
    (maxKeys : Nat) (threshold : String) (keys : List K) :
    (parseThresholdKeys parseThreshold maxKeys (.lit threshold :: keys.map .key) :
      Outcome (DescrParseError ε) _) ≠ .panic := by
  simp only [parseThresholdKeys]
  rw [mapM_map_key fun _ => rfl]
  simp only [Outcome.pure_eq_ok, Outcome.ok_bind, ne_eq, Outcome.bind_eq_panic,
    Outcome.ofExcept_ne_panic, reduceCtorEq, and_false, exists_false, or_self, not_false_eq_true]

/-- The threshold call of `parse_multi_form` and `parse_tr_form` never panics once it is
taken apart: `check_forms` has already shaped it. -/
theorem checkFormsOr_parseThresholdKeys_ne_panic {T : Type}
    (parseThreshold : String → Except ParseIntError T) (maxKeys : Nat) (script : ScriptExpr K)
    (inner : String) :
    (checkFormsOr script inner [.lit, .variadicKey] >>= parseThresholdKeys parseThreshold maxKeys :
      Outcome (DescrParseError ε) _) ≠ .panic := by
  simp only [ne_eq, Outcome.bind_eq_panic, checkFormsOr_ne_panic, checkFormsOr_eq_ok,
    checkForms_lit_keys_iff, false_or, not_exists, not_and]
  rintro _ ⟨-, threshold, keys, rfl⟩
  exact parseThresholdKeys_ne_panic _ _ _ _

/-- `parse_multi_form`: `outer(medium?(inner(k, KEY, …)))`. -/
def parseMultiForm (s : List Char) (outer : String) (medium : Option String)
    (inner : String) : Outcome (DescrParseError ε) (Fin 16 × ConfinedVec K 1 16) := do
  let ast ← Outcome.ofExcept (tokenize s)
  let form ← checkFormsOr ast outer [.script]
  let some (.script script) := form.getLast? | .panic
  let script ← match medium with
    | none => pure script
    | some medium => do
        let form ← checkFormsOr script medium [.script]
        let some (.script script2) := form.getLast? | .panic
        pure script2
  let form ← checkFormsOr script inner [.lit, .variadicKey]
  parseThresholdKeys u4FromStr 16 form

/-- `ShMulti::from_str`. -/
def ShMulti.fromStr (s : List Char) : Outcome (DescrParseError ε) (MultiSig K) :=
  (fun (threshold, keys) => ⟨threshold, keys⟩) <$> parseMultiForm tokenize s "sh" none "multi"

/-- `ShSortedMulti::from_str`. -/
def ShSortedMulti.fromStr (s : List Char) : Outcome (DescrParseError ε) (MultiSig K) :=
  (fun (threshold, keys) => ⟨threshold, keys⟩) <$>
    parseMultiForm tokenize s "sh" none "sortedmulti"

/-- `WshMulti::from_str`. -/
def WshMulti.fromStr (s : List Char) : Outcome (DescrParseError ε) (MultiSig K) :=
  (fun (threshold, keys) => ⟨threshold, keys⟩) <$> parseMultiForm tokenize s "wsh" none "multi"

/-- `WshSortedMulti::from_str`. -/
def WshSortedMulti.fromStr (s : List Char) : Outcome (DescrParseError ε) (MultiSig K) :=
  (fun (threshold, keys) => ⟨threshold, keys⟩) <$>
    parseMultiForm tokenize s "wsh" none "sortedmulti"

/-- `ShWshMulti::from_str`. -/
def ShWshMulti.fromStr (s : List Char) : Outcome (DescrParseError ε) (MultiSig K) :=
  (fun (threshold, keys) => ⟨threshold, keys⟩) <$>
    parseMultiForm tokenize s "sh" (some "wsh") "multi"

/-- `ShWshSortedMulti::from_str`. -/
def ShWshSortedMulti.fromStr (s : List Char) : Outcome (DescrParseError ε) (MultiSig K) :=
  (fun (threshold, keys) => ⟨threshold, keys⟩) <$>
    parseMultiForm tokenize s "sh" (some "wsh") "sortedmulti"

/-- `ShScript::from_str`, `WshScript::from_str` and `ShWshScript::from_str`: scripts are
not supported, so no value is ever returned. -/
def scriptFromStr (_s : List Char) : Outcome (DescrParseError ε) Empty :=
  .err (.notSupported "scripts")

/-- `parse_tr_form`: `tr(KEY, inner(k, KEY, …))`; the script is popped first, then the
internal key. -/
def parseTrForm (s : List Char) (inner : String) :
    Outcome (DescrParseError ε) (K × UInt16 × ConfinedVec K 1 999) := do
  let ast ← Outcome.ofExcept (tokenize s)
  let form ← checkFormsOr ast "tr" [.key, .script]
  let some (.script script) := form.getLast? | .panic
  let some (.key internalKey) := form.dropLast.getLast? | .panic
  let form ← checkFormsOr script inner [.lit, .variadicKey]
  let (threshold, scriptKeys) ← parseThresholdKeys u16FromStr 999 form
  pure (internalKey, threshold, scriptKeys)

/-- `TrMulti::from_str`. -/
def TrMulti.fromStr (s : List Char) : Outcome (DescrParseError ε) (TrMultiSig K) :=
  (fun (internalKey, threshold, scriptKeys) => ⟨internalKey, threshold, scriptKeys⟩) <$>
    parseTrForm tokenize s "multi_a"

/-- `TrSortedMulti::from_str`. -/
def TrSortedMulti.fromStr (s : List Char) : Outcome (DescrParseError ε) (TrMultiSig K) :=
  (fun (internalKey, threshold, scriptKeys) => ⟨internalKey, threshold, scriptKeys⟩) <$>
    parseTrForm tokenize s "sortedmulti_a"

/-- `TrScript::from_str`: `check_forms(ast, "tr", &[Key, Tree])`, then the key is popped
first and the tree second; tree scripts are not supported. -/
def TrScript.fromStr (s : List Char) : Outcome (DescrParseError ε) Empty := do
  let ast ← Outcome.ofExcept (tokenize s)
  let form ← checkFormsOr ast "tr" [.key, .tree]
  let some (.key _) := form.getLast? | .panic
  let some (.tree _) := form.dropLast.getLast? | .panic
  .err (.notSupported "scripts")

/-! ## Dispatchers -/

/-- `trim_start_expr`. -/
def trimStartExpr (s : List Char) (expr : String) : Option (List Char) :=
  (Str.stripPrefix (Str.trimStart s) expr.toList).bind fun rest =>
    Str.stripPrefix (Str.trimStart rest) ['(']

/-- `ShWsh::from_str`. -/
def ShWsh.fromStr (s : List Char) : Outcome (DescrParseError ε) (ShWsh K) :=
  match trimStartExpr s "sh" with
  | none => .err (.noRequiredScript "sh")
  | some rest =>
      match trimStartExpr rest "wsh" with
      | none => .err (.noRequiredScript "wsh")
      | some rest =>
          if Str.startsWith rest "multi".toList then ShWsh.multi <$> ShWshMulti.fromStr tokenize s
          else if Str.startsWith rest "sortedmulti".toList then
            ShWsh.sortedMulti <$> ShWshSortedMulti.fromStr tokenize s
          else Empty.elim <$> scriptFromStr s

/-- `Sh::from_str`: routes on the text after `sh(`, and has no branch for `wpkh`. -/
def Sh.fromStr (s : List Char) : Outcome (DescrParseError ε) (Sh K) :=
  match trimStartExpr s "sh" with
  | none => .err (.noRequiredScript "sh")
  | some rest =>
      if Str.startsWith rest "wsh".toList then ShWsh.toSh <$> ShWsh.fromStr tokenize s
      else if Str.startsWith rest "sortedmulti".toList then
        Sh.shSortedMulti <$> ShSortedMulti.fromStr tokenize s
      else if Str.startsWith rest "multi".toList then Sh.shMulti <$> ShMulti.fromStr tokenize s
      else Empty.elim <$> scriptFromStr s

/-- `Wsh::from_str`. -/
def Wsh.fromStr (s : List Char) : Outcome (DescrParseError ε) (Wsh K) :=
  match trimStartExpr s "wsh" with
  | none => .err (.noRequiredScript "wsh")
  | some rest =>
      let rest := Str.trimStart rest
      if Str.startsWith rest "multi".toList then Wsh.multi <$> WshMulti.fromStr tokenize s
      else if Str.startsWith rest "sortedmulti".toList then
        Wsh.sortedMulti <$> WshSortedMulti.fromStr tokenize s
      else Empty.elim <$> scriptFromStr s

/-- `Tr::from_str`: the first of `TrKey`, `TrMulti`, `TrSortedMulti` that returns `Ok`,
else `TrScript`; a panic in any of them is not an `Err` and ends the call. -/
def Tr.fromStr (s : List Char) : Outcome (DescrParseError ε) (Tr K) :=
  match TrKey.fromStr tokenize s with
  | .ok trKey => .ok (.keyOnly trKey)
  | .panic => .panic
  | .err _ =>
      match TrMulti.fromStr tokenize s with
      | .ok trMulti => .ok (.multi trMulti)
      | .panic => .panic
      | .err _ =>
          match TrSortedMulti.fromStr tokenize s with
          | .ok trSortedMulti => .ok (.sortedMulti trSortedMulti)
          | .panic => .panic
          | .err _ => Empty.elim <$> TrScript.fromStr tokenize s

/-- `StdDescr::from_str`: routes on the prefix of the trimmed text; a text that matches no
route is reported as it was given, untrimmed (the `_` arm names the parameter `s`). -/
def StdDescr.fromStr (s : List Char) : Outcome (DescrParseError ε) (StdDescr K) :=
  let trimmed := Str.trimStart s
  if Str.startsWith trimmed "pkh".toList then StdDescr.pkh <$> Pkh.fromStr tokenize trimmed
  else if Str.startsWith trimmed "wpkh".toList then StdDescr.wpkh <$> Wpkh.fromStr tokenize trimmed
  else if Str.startsWith trimmed "sh".toList then Sh.toStdDescr <$> Sh.fromStr tokenize trimmed
  else if Str.startsWith trimmed "wsh".toList then Wsh.toStdDescr <$> Wsh.fromStr tokenize trimmed
  else if Str.startsWith trimmed "tr".toList then Tr.toStdDescr <$> Tr.fromStr tokenize trimmed
  else .err (.invalidScriptExpr s)

/-! ## What the parsers accept -/

/-- The tests parse `tr(KEY)` with `TrKey::from_str`, so the tokenizer turns it into the
call `tr` with the key as its only child.  `check_forms(ast, "tr", &[Key, Tree])`
accepts that call one argument short (`checkForms_one_short`), and `TrScript::from_str`
pops the key, then finds nothing left for the tree: `unreachable!()`. -/
theorem trScript_fromStr_tr_key_panics (key : K)
    (tokenized : tokenize "tr(KEY)".toList = .ok (.mk "tr" [.key key])) :
    TrKey.fromStr tokenize "tr(KEY)".toList = .ok ⟨key⟩ ∧
      TrScript.fromStr tokenize "tr(KEY)".toList = .panic := by
  simp only [TrKey.fromStr, parseKeyForm, TrScript.fromStr, tokenized]
  exact ⟨rfl, rfl⟩

/-- `Sh::from_str` has no branch for `wpkh`: the text every `sh(wpkh(…))` descriptor
displays as, whatever its key, falls through to `ShScript::from_str` and is rejected. -/
theorem stdDescr_fromStr_display_shWpkh (keyText : K → List Char) (descriptor : ShWpkh K) :
    StdDescr.fromStr tokenize ((StdDescr.shWpkh descriptor).display keyText) =
      .err (.notSupported "scripts") := by
  have text : (StdDescr.shWpkh descriptor).display keyText =
      's' :: 'h' :: '(' :: 'w' :: 'p' :: 'k' :: 'h' :: '(' ::
        (keyText descriptor.key ++ [')', ')']) := by
    simp [StdDescr.display, ShWpkh.display, callText]
  rw [text]
  simp [StdDescr.fromStr, Sh.fromStr, trimStartExpr, Str.trimStart, Str.stripPrefix,
    Str.startsWith, Str.isWhitespace, List.isPrefixOf, scriptFromStr]

/-- No branch of `Sh::from_str` builds `Sh::Wpkh`. -/
theorem sh_fromStr_ne_wpkh (s : List Char) (descriptor : ShWpkh K) :
    Sh.fromStr tokenize s ≠ .ok (.wpkh descriptor) := by
  intro parsed
  unfold Sh.fromStr at parsed
  split at parsed
  · cases parsed
  · split_ifs at parsed <;> obtain ⟨value, -, built⟩ := Outcome.map_eq_ok.mp parsed
    · cases value <;> cases built
    · cases built
    · cases built
    · exact value.elim

/-- `StdDescr::from_str` routes every text starting with `sh` to `Sh::from_str`, so it never
returns `StdDescr::ShWpkh`, on any text and with any tokenizer; `ShWpkh::from_str` accepts
every text the tokenizer reads as `sh(wpkh(KEY))`. -/
theorem stdDescr_fromStr_never_shWpkh :
    (∀ s (descriptor : ShWpkh K), StdDescr.fromStr tokenize s ≠ .ok (.shWpkh descriptor)) ∧
      (∀ s (descriptor : ShWpkh K), Sh.fromStr tokenize s ≠ .ok (.wpkh descriptor)) ∧
      ∀ s (key : K), tokenize s = .ok (.mk "sh" [.script (.mk "wpkh" [.key key])]) →
        ShWpkh.fromStr tokenize s = .ok ⟨key⟩ := by
  refine ⟨fun s descriptor parsed => ?_, sh_fromStr_ne_wpkh tokenize, fun s key tokenized => ?_⟩
  · unfold StdDescr.fromStr at parsed
    dsimp only at parsed
    split_ifs at parsed <;> obtain ⟨value, routed, built⟩ := Outcome.map_eq_ok.mp parsed
    · cases built
    · cases built
    · -- only `Sh::Wpkh` becomes `StdDescr::ShWpkh`, and `Sh::from_str` never builds it
      cases value <;> cases built
      exact sh_fromStr_ne_wpkh tokenize _ descriptor routed
    · cases value <;> cases built
    · cases value <;> cases built
  · simp only [ShWpkh.fromStr, tokenized]
    rfl

/-- The spec's tokenizer reads `sh(wpkh(KEY))` as `ShWpkh::from_str` expects. -/
theorem stdDescr_fromStr_never_shWpkh_dumb_key :
    ScriptExpr.fromStr DumbKey.fromStr "sh(wpkh(KEY))".toList =
        .ok (.mk "sh" [.script (.mk "wpkh" [.key ⟨⟩])]) ∧
      ShWpkh.fromStr (ScriptExpr.fromStr DumbKey.fromStr) "sh(wpkh(KEY))".toList =
        .ok ⟨⟨⟩⟩ ∧
      StdDescr.fromStr (ScriptExpr.fromStr DumbKey.fromStr) "sh(wpkh(KEY))".toList ≠
        .ok (.shWpkh ⟨⟨⟩⟩) :=
  have tokenized : ScriptExpr.fromStr DumbKey.fromStr "sh(wpkh(KEY))".toList =
      .ok (.mk "sh" [.script (.mk "wpkh" [.key ⟨⟩])]) := rfl
  ⟨tokenized,
    (stdDescr_fromStr_never_shWpkh (ScriptExpr.fromStr DumbKey.fromStr)).2.2 _ ⟨⟩ tokenized,
    (stdDescr_fromStr_never_shWpkh (ScriptExpr.fromStr DumbKey.fromStr)).1 _ ⟨⟨⟩⟩⟩

/-- The threshold of `multi` is only parsed as a `u4`: with one key, a threshold of 0 and
a threshold above the key count are both accepted, and the threshold 16 of sixteen keys
is rejected. -/
theorem shMulti_fromStr_threshold_unchecked (key : K)
    (zero : tokenize "sh(multi(0,KEY))".toList =
      .ok (.mk "sh" [.script (.mk "multi" [.lit "0", .key key])]))
    (over : tokenize "sh(multi(2,KEY))".toList =
      .ok (.mk "sh" [.script (.mk "multi" [.lit "2", .key key])]))
    (sixteen : tokenize
        "sh(multi(16,KEY,KEY,KEY,KEY,KEY,KEY,KEY,KEY,KEY,KEY,KEY,KEY,KEY,KEY,KEY,KEY))".toList =
      .ok (.mk "sh" [.script (.mk "multi" (.lit "16" :: List.replicate 16 (.key key)))])) :
    (∃ descriptor, ShMulti.fromStr tokenize "sh(multi(0,KEY))".toList = .ok descriptor ∧
        descriptor.threshold = 0 ∧ descriptor.keys.items = [key]) ∧
      (∃ descriptor, ShMulti.fromStr tokenize "sh(multi(2,KEY))".toList = .ok descriptor ∧
        descriptor.threshold = 2 ∧ descriptor.keys.items = [key]) ∧
      ShMulti.fromStr tokenize
          "sh(multi(16,KEY,KEY,KEY,KEY,KEY,KEY,KEY,KEY,KEY,KEY,KEY,KEY,KEY,KEY,KEY,KEY))".toList =
        .err (.threshold ⟨.posOverflow⟩) := by
  simp only [ShMulti.fromStr, parseMultiForm, zero, over, sixteen]
  exact ⟨⟨_, rfl, rfl, rfl⟩, ⟨_, rfl, rfl, rfl⟩, rfl⟩

end Parsers

/-- The spec's tokenizer reads `tr(KEY)` as the tests require. -/
theorem trScript_fromStr_tr_key_panics_dumb_key :
    ScriptExpr.fromStr DumbKey.fromStr "tr(KEY)".toList = .ok (.mk "tr" [.key ⟨⟩]) ∧
      TrKey.fromStr (ScriptExpr.fromStr DumbKey.fromStr) "tr(KEY)".toList = .ok ⟨⟨⟩⟩ ∧
      TrScript.fromStr (ScriptExpr.fromStr DumbKey.fromStr) "tr(KEY)".toList = .panic :=
  have tokenized : ScriptExpr.fromStr DumbKey.fromStr "tr(KEY)".toList = .ok (.mk "tr" [.key ⟨⟩]) :=
    rfl
  ⟨tokenized, trScript_fromStr_tr_key_panics (ScriptExpr.fromStr DumbKey.fromStr) ⟨⟩ tokenized⟩

/-- The spec's tokenizer reads the three multisig strings as the grammar does. -/
theorem shMulti_fromStr_threshold_unchecked_dumb_key :
    (ScriptExpr.fromStr DumbKey.fromStr "sh(multi(0,KEY))".toList =
        .ok (.mk "sh" [.script (.mk "multi" [.lit "0", .key ⟨⟩])]) ∧
      ScriptExpr.fromStr DumbKey.fromStr "sh(multi(2,KEY))".toList =
        .ok (.mk "sh" [.script (.mk "multi" [.lit "2", .key ⟨⟩])]) ∧
      ScriptExpr.fromStr DumbKey.fromStr
          "sh(multi(16,KEY,KEY,KEY,KEY,KEY,KEY,KEY,KEY,KEY,KEY,KEY,KEY,KEY,KEY,KEY,KEY))".toList =
        .ok (.mk "sh" [.script (.mk "multi" (.lit "16" :: List.replicate 16 (.key ⟨⟩)))])) ∧
    (∃ descriptor, ShMulti.fromStr (ScriptExpr.fromStr DumbKey.fromStr)
        "sh(multi(0,KEY))".toList = .ok descriptor ∧
        descriptor.threshold = 0 ∧ descriptor.keys.items = [⟨⟩]) ∧
      (∃ descriptor, ShMulti.fromStr (ScriptExpr.fromStr DumbKey.fromStr)
        "sh(multi(2,KEY))".toList = .ok descriptor ∧
        descriptor.threshold = 2 ∧ descriptor.keys.items = [⟨⟩]) ∧
      ShMulti.fromStr (ScriptExpr.fromStr DumbKey.fromStr)
          "sh(multi(16,KEY,KEY,KEY,KEY,KEY,KEY,KEY,KEY,KEY,KEY,KEY,KEY,KEY,KEY,KEY,KEY))".toList =
        .err (.threshold ⟨.posOverflow⟩) :=
  have zero : ScriptExpr.fromStr DumbKey.fromStr "sh(multi(0,KEY))".toList =
      .ok (.mk "sh" [.script (.mk "multi" [.lit "0", .key ⟨⟩])]) := rfl
  have over : ScriptExpr.fromStr DumbKey.fromStr "sh(multi(2,KEY))".toList =
      .ok (.mk "sh" [.script (.mk "multi" [.lit "2", .key ⟨⟩])]) := rfl
  have sixteen : ScriptExpr.fromStr DumbKey.fromStr
      "sh(multi(16,KEY,KEY,KEY,KEY,KEY,KEY,KEY,KEY,KEY,KEY,KEY,KEY,KEY,KEY,KEY,KEY))".toList =
      .ok (.mk "sh" [.script (.mk "multi" (.lit "16" :: List.replicate 16 (.key ⟨⟩)))]) := rfl
  ⟨⟨zero, over, sixteen⟩,
    shMulti_fromStr_threshold_unchecked (ScriptExpr.fromStr DumbKey.fromStr) ⟨⟩ zero over sixteen⟩

end BpStd.Descriptors
