import BpStd.Descriptors.ParseOutcomes

/-!
Contract: what the parsers of `descriptors/src/compiler/compile.rs` accept, over every
tokenizer and every text.  Each parser body returns `Ok` exactly on the calls of its
descriptor's shape, and `StdDescr::from_str` returns a descriptor only when the
tokenizer read the text as a call that describes it.

Owns: the calls with the threshold literal as the tokenizer read it (`literalCall`,
`multiCallWith`, `trMultiCallWith`, from the spec's grammar), the grammar
`StdDescr.DescribedBy` of the call of each descriptor, the call each descriptor's text is
(`StdDescr.callTree`, with its threshold in decimal) and that it is in the grammar, the
`Ok` condition of each parser body, and the soundness of each dispatcher for the grammar.

Does not own: the tokenizer, a parameter; which texts reach which parser and the
descriptors' own texts, which `RoundTrip` states.
-/

namespace BpStd.Descriptors

open BpStd.Rust

variable {K : Type}

/-! ## The calls the parsers take apart -/

/-- Modelled from the spec: `inner(literal,KEY,…,KEY)`, the threshold the literal as written. -/
def literalCall (inner literal : String) (keys : List K) : ScriptExpr K :=
  .mk inner (.lit literal :: keys.map .key)

theorem checkForms_literalCall (inner literal : String) (keys : List K) :
    checkForms (literalCall inner literal keys) inner [.lit, .variadicKey] =
      some (.lit literal :: keys.map .key) :=
  checkForms_lit_keys_iff.mpr ⟨rfl, _, keys, rfl⟩

/-- Modelled from the spec: `outer(medium?(inner(literal,KEY,…)))`. -/
def multiCallWith (outer : String) (medium : Option String) (inner literal : String)
    (keys : List K) : ScriptExpr K :=
  let threshold := literalCall inner literal keys
  .mk outer [.script (medium.elim threshold fun medium => .mk medium [.script threshold])]

/-- Modelled from the spec: `tr(KEY,inner(literal,KEY,…))`. -/
def trMultiCallWith (inner literal : String) (internalKey : K) (keys : List K) :
    ScriptExpr K :=
  .mk "tr" [.key internalKey, .script (literalCall inner literal keys)]

/-- A multisig descriptor is called as `outer(medium?(inner(k,KEY,…)))` with a threshold
literal that `u4::from_str` reads as its threshold, and its keys in order. -/
def MultiSig.CalledAs (ast : ScriptExpr K) (outer : String) (medium : Option String)
    (inner : String) (descriptor : MultiSig K) : Prop :=
  ∃ literal, u4FromStr literal = .ok descriptor.threshold ∧
    ast = multiCallWith outer medium inner literal descriptor.keys.items

/-- A taproot multisig descriptor is called as `tr(KEY,inner(k,KEY,…))` with a threshold
literal that `u16::from_str` reads as its threshold. -/
def TrMultiSig.CalledAs (ast : ScriptExpr K) (inner : String) (descriptor : TrMultiSig K) :
    Prop :=
  ∃ literal, u16FromStr literal = .ok descriptor.threshold ∧
    ast = trMultiCallWith inner literal descriptor.internalKey descriptor.scriptKeys.items

/-- The grammar of descriptor calls: the call `ast` describes `descriptor`. -/
def StdDescr.DescribedBy (ast : ScriptExpr K) : StdDescr K → Prop
  | .pkh descriptor => ast = .mk "pkh" [.key descriptor.key]
  | .shMulti descriptor => descriptor.CalledAs ast "sh" none "multi"
  | .shSortedMulti descriptor => descriptor.CalledAs ast "sh" none "sortedmulti"
  | .wpkh descriptor => ast = .mk "wpkh" [.key descriptor.key]
  | .wshMulti descriptor => descriptor.CalledAs ast "wsh" none "multi"
  | .wshSortedMulti descriptor => descriptor.CalledAs ast "wsh" none "sortedmulti"
  | .shWpkh descriptor => ast = .mk "sh" [.script (.mk "wpkh" [.key descriptor.key])]
  | .shWshMulti descriptor => descriptor.CalledAs ast "sh" (some "wsh") "multi"
  | .shWshSortedMulti descriptor => descriptor.CalledAs ast "sh" (some "wsh") "sortedmulti"
  | .trKey descriptor => ast = .mk "tr" [.key descriptor.internalKey]
  | .trMulti descriptor => descriptor.CalledAs ast "multi_a"
  | .trSortedMulti descriptor => descriptor.CalledAs ast "sortedmulti_a"

/-! ## The calls descriptors write -/

/-- Modelled from the spec: `inner(k,KEY,…,KEY)` as the tokenizer reads it, the threshold a
literal and each key a key. -/
def thresholdCall (inner : String) (threshold : Nat) (keys : List K) : ScriptExpr K :=
  .mk inner (.lit (Nat.repr threshold) :: keys.map .key)

/-- Modelled from the spec: `outer(medium?(inner(k,KEY,…)))`, the call `parse_multi_form`
takes apart. -/
def multiCall (outer : String) (medium : Option String) (inner : String)
    (descriptor : MultiSig K) : ScriptExpr K :=
  let threshold := thresholdCall inner descriptor.threshold descriptor.keys.items
  .mk outer [.script (medium.elim threshold fun medium => .mk medium [.script threshold])]

/-- Modelled from the spec: `tr(KEY,inner(k,KEY,…))`, the call `parse_tr_form` takes apart. -/
def trMultiCall (inner : String) (descriptor : TrMultiSig K) : ScriptExpr K :=
  .mk "tr" [.key descriptor.internalKey,
    .script (thresholdCall inner descriptor.threshold.toNat descriptor.scriptKeys.items)]

/-- Modelled from the spec: the call each descriptor's text is, as the tokenizer reads it. -/
def StdDescr.callTree : StdDescr K → ScriptExpr K
  | .pkh descriptor => .mk "pkh" [.key descriptor.key]
  | .shMulti descriptor => multiCall "sh" none "multi" descriptor
  | .shSortedMulti descriptor => multiCall "sh" none "sortedmulti" descriptor
  | .wpkh descriptor => .mk "wpkh" [.key descriptor.key]
  | .wshMulti descriptor => multiCall "wsh" none "multi" descriptor
  | .wshSortedMulti descriptor => multiCall "wsh" none "sortedmulti" descriptor
  | .shWpkh descriptor => .mk "sh" [.script (.mk "wpkh" [.key descriptor.key])]
  | .shWshMulti descriptor => multiCall "sh" (some "wsh") "multi" descriptor
  | .shWshSortedMulti descriptor => multiCall "sh" (some "wsh") "sortedmulti" descriptor
  | .trKey descriptor => .mk "tr" [.key descriptor.internalKey]
  | .trMulti descriptor => trMultiCall "multi_a" descriptor
  | .trSortedMulti descriptor => trMultiCall "sortedmulti_a" descriptor

/-- The call of every descriptor's text is a call of the grammar `StdDescr.DescribedBy`,
with its threshold in decimal. -/
theorem StdDescr.describedBy_callTree (descriptor : StdDescr K) :
    descriptor.DescribedBy descriptor.callTree := by
  cases descriptor
  case trMulti descriptor | trSortedMulti descriptor => exact ⟨_, u16FromStr_repr _, rfl⟩
  all_goals first | rfl | exact ⟨_, u4FromStr_repr _, rfl⟩

section Parsers

variable {ε : Type} (tokenize : List Char → Except (DescrParseError ε) (ScriptExpr K))

/-! ## The parser bodies -/

/-- The threshold and keys of a `[Lit, VariadicKey]` form are read exactly when the
literal parses and the keys fit the bounds. -/
theorem parseThresholdKeys_lit_keys_eq_ok_iff {T : Type}
    {parseThreshold : String → Except ParseIntError T} {maxKeys : Nat} {literal : String}
    {keys : List K} {threshold : T} {vec : ConfinedVec K 1 maxKeys} :
    (parseThresholdKeys parseThreshold maxKeys (.lit literal :: keys.map .key) :
      Outcome (DescrParseError ε) _) = .ok (threshold, vec) ↔
      parseThreshold literal = .ok threshold ∧ vec.items = keys := by
  simp only [parseThresholdKeys]
  rw [mapM_map_key fun _ => rfl]
  cases parseThreshold literal <;> cases confined :
      (ConfinedVec.tryFromIter keys : Except ConfinementError (ConfinedVec K 1 maxKeys)) <;>
    simp only [Except.mapError, Outcome.ofExcept_ok, Outcome.ofExcept_error, Outcome.pure_eq_ok,
      Outcome.ok_bind, Outcome.err_bind, confined, reduceCtorEq, Except.ok.injEq, Outcome.ok.injEq,
      Prod.mk.injEq, ← ConfinedVec.tryFromIter_eq_ok, and_self, false_and, and_false]

/-- A threshold call is read exactly when `check_forms` shapes it as a literal and keys
and `parse_threshold_keys` reads them. -/
theorem checkFormsOr_parseThresholdKeys_eq_ok_iff {T : Type}
    {parseThreshold : String → Except ParseIntError T} {maxKeys : Nat} {script : ScriptExpr K}
    {inner : String} {threshold : T} {vec : ConfinedVec K 1 maxKeys} :
    (checkFormsOr script inner [.lit, .variadicKey] >>= parseThresholdKeys parseThreshold maxKeys :
      Outcome (DescrParseError ε) _) = .ok (threshold, vec) ↔
      ∃ literal, parseThreshold literal = .ok threshold ∧
        script = literalCall inner literal vec.items := by
  simp only [Outcome.bind_eq_ok, checkFormsOr_eq_ok, checkForms_lit_keys_iff]
  constructor
  · rintro ⟨_, ⟨rfl, literal, keys, rfl⟩, parsed⟩
    obtain ⟨read, rfl⟩ := parseThresholdKeys_lit_keys_eq_ok_iff.mp parsed
    exact ⟨literal, read, rfl⟩
  · rintro ⟨literal, read, rfl⟩
    exact ⟨_, ⟨rfl, literal, vec.items, rfl⟩, parseThresholdKeys_lit_keys_eq_ok_iff.mpr ⟨read, rfl⟩⟩

/-- `parse_multi_form` returns `Ok` exactly on `outer(medium?(inner(k,KEY,…)))` with a
threshold literal `u4::from_str` reads and one to sixteen keys. -/
theorem parseMultiForm_eq_ok_iff {s : List Char} {outer : String} {medium : Option String}
    {inner : String} {threshold : Fin 16} {keys : ConfinedVec K 1 16} :
    parseMultiForm tokenize s outer medium inner = .ok (threshold, keys) ↔
      ∃ literal, u4FromStr literal = .ok threshold ∧
        tokenize s = .ok (multiCallWith outer medium inner literal keys.items) := by
  simp only [parseMultiForm, Outcome.bind_eq_ok, Outcome.ofExcept_eq_ok, checkFormsOr_eq_ok,
    checkForms_script_iff]
  constructor
  · rintro ⟨_, tokenized, _, ⟨rfl, rfl | ⟨script, rfl⟩⟩, parsed⟩
    · cases parsed
    · cases medium with
      | none =>
        obtain ⟨literal, read, rfl⟩ := checkFormsOr_parseThresholdKeys_eq_ok_iff.mp parsed
        exact ⟨literal, read, tokenized⟩
      | some medium =>
        simp only [List.getLast?_singleton, Outcome.bind_eq_ok, checkFormsOr_eq_ok,
          checkForms_script_iff] at parsed
        obtain ⟨_, ⟨rfl, rfl | ⟨script, rfl⟩⟩, parsed⟩ := parsed
        · cases parsed
        · simp only [List.getLast?_singleton, Outcome.pure_eq_ok, Outcome.ok_bind] at parsed
          obtain ⟨literal, read, rfl⟩ := checkFormsOr_parseThresholdKeys_eq_ok_iff.mp parsed
          exact ⟨literal, read, tokenized⟩
  · rintro ⟨literal, read, tokenized⟩
    refine ⟨_, tokenized, _, ⟨rfl, .inr ⟨_, rfl⟩⟩, ?_⟩
    cases medium with
    | none => exact checkFormsOr_parseThresholdKeys_eq_ok_iff.mpr ⟨literal, read, rfl⟩
    | some medium =>
      simp only [List.getLast?_singleton, Option.elim, checkFormsOr, checkForms_script_call,
        Outcome.ofOption_some, Outcome.ok_bind, Outcome.pure_eq_ok]
      exact checkFormsOr_parseThresholdKeys_eq_ok_iff.mpr ⟨literal, read, rfl⟩

/-- `parse_tr_form` returns `Ok` exactly on `tr(KEY,inner(k,KEY,…))` with a threshold
literal `u16::from_str` reads and one to 999 keys. -/
theorem parseTrForm_eq_ok_iff {s : List Char} {inner : String} {internalKey : K}
    {threshold : UInt16} {scriptKeys : ConfinedVec K 1 999} :
    parseTrForm tokenize s inner = .ok (internalKey, threshold, scriptKeys) ↔
      ∃ literal, u16FromStr literal = .ok threshold ∧
        tokenize s = .ok (trMultiCallWith inner literal internalKey scriptKeys.items) := by
  simp only [parseTrForm, Outcome.bind_eq_ok, Outcome.ofExcept_eq_ok, checkFormsOr_eq_ok,
    checkForms_key_script_iff]
  constructor
  · rintro ⟨_, tokenized, _, ⟨rfl, ⟨key, rfl⟩ | ⟨key, script, rfl⟩⟩, parsed⟩
    · cases parsed
    · simp only [List.getLast?_cons_cons, List.getLast?_singleton, List.dropLast_cons₂,
        List.dropLast_single, Outcome.bind_eq_ok, checkFormsOr_eq_ok, checkForms_lit_keys_iff,
        Outcome.pure_eq_ok, Outcome.ok.injEq, Prod.mk.injEq] at parsed
      obtain ⟨_, ⟨rfl, literal, keys, rfl⟩, ⟨_, _⟩, parsed, rfl, rfl, rfl⟩ := parsed
      obtain ⟨read, rfl⟩ := parseThresholdKeys_lit_keys_eq_ok_iff.mp parsed
      exact ⟨literal, read, tokenized⟩
  · rintro ⟨literal, read, tokenized⟩
    refine ⟨_, tokenized, _, ⟨rfl, .inr ⟨_, _, rfl⟩⟩, ?_⟩
    simp only [List.getLast?_cons_cons, List.getLast?_singleton, List.dropLast_cons₂,
      List.dropLast_single, checkFormsOr, checkForms_literalCall,
      Outcome.ofOption_some, Outcome.ok_bind,
      parseThresholdKeys_lit_keys_eq_ok_iff.mpr ⟨read, rfl⟩]
    rfl

/-- `ShWpkh::from_str` returns `Ok` exactly on `sh(wpkh(KEY))`. -/
theorem shWpkh_fromStr_eq_ok_iff {s : List Char} {descriptor : ShWpkh K} :
    ShWpkh.fromStr tokenize s = .ok descriptor ↔
      tokenize s = .ok (.mk "sh" [.script (.mk "wpkh" [.key descriptor.key])]) := by
  simp only [ShWpkh.fromStr, Outcome.bind_eq_ok, Outcome.ofExcept_eq_ok, checkFormsOr_eq_ok,
    checkForms_script_iff]
  constructor
  · rintro ⟨_, tokenized, _, ⟨rfl, rfl | ⟨inner, rfl⟩⟩, parsed⟩
    · cases parsed
    · simp only [List.getLast?_singleton, Outcome.bind_eq_ok, checkFormsOr_eq_ok,
        checkForms_key_iff] at parsed
      obtain ⟨_, ⟨rfl, rfl | ⟨key, rfl⟩⟩, parsed⟩ := parsed
      · cases parsed
      · cases parsed
        exact tokenized
  · intro tokenized
    refine ⟨_, tokenized, _, ⟨rfl, .inr ⟨_, rfl⟩⟩, ?_⟩
    simp only [List.getLast?_singleton, checkFormsOr, checkForms_key_call, Outcome.ofOption_some,
      Outcome.ok_bind]
    rfl

/-- Every `Ok` of the parser bodies of `compile.rs`, exactly, for every tokenizer and
text: the key-only parsers on `ident(KEY)`, `ShWpkh` on `sh(wpkh(KEY))`,
`parse_multi_form` on `outer(medium?(inner(k,KEY,…)))` and `parse_tr_form` on
`tr(KEY,inner(k,KEY,…))`, each threshold a literal its type's `from_str` reads and the
keys within their bounds. -/
theorem compile_parsers_ok_iff :
    (∀ ident s (key : K), parseKeyForm tokenize ident s = .ok key ↔
        tokenize s = .ok (.mk ident [.key key])) ∧
      (∀ s (descriptor : ShWpkh K), ShWpkh.fromStr tokenize s = .ok descriptor ↔
        tokenize s = .ok (.mk "sh" [.script (.mk "wpkh" [.key descriptor.key])])) ∧
      (∀ s outer medium inner threshold (keys : ConfinedVec K 1 16),
        parseMultiForm tokenize s outer medium inner = .ok (threshold, keys) ↔
          ∃ literal, u4FromStr literal = .ok threshold ∧
            tokenize s = .ok (multiCallWith outer medium inner literal keys.items)) ∧
      ∀ s inner (internalKey : K) threshold (scriptKeys : ConfinedVec K 1 999),
        parseTrForm tokenize s inner = .ok (internalKey, threshold, scriptKeys) ↔
          ∃ literal, u16FromStr literal = .ok threshold ∧
            tokenize s = .ok (trMultiCallWith inner literal internalKey scriptKeys.items) :=
  ⟨fun _ _ _ => parseKeyForm_eq_ok_iff tokenize, fun _ _ => shWpkh_fromStr_eq_ok_iff tokenize,
    fun _ _ _ _ _ _ => parseMultiForm_eq_ok_iff tokenize,
    fun _ _ _ _ _ => parseTrForm_eq_ok_iff tokenize⟩

/-! ## The dispatchers are sound for the grammar -/

/-- A multisig parser's value is described by the call the tokenizer read. -/
theorem calledAs_of_parseMultiForm {s : List Char} {outer : String} {medium : Option String}
    {inner : String} {descriptor : MultiSig K}
    (parsed : (fun (threshold, keys) => (⟨threshold, keys⟩ : MultiSig K)) <$>
      parseMultiForm tokenize s outer medium inner = .ok descriptor) :
    ∃ ast, tokenize s = .ok ast ∧ descriptor.CalledAs ast outer medium inner := by
  obtain ⟨⟨threshold, keys⟩, formed, rfl⟩ := Outcome.map_eq_ok.mp parsed
  obtain ⟨literal, read, tokenized⟩ := (parseMultiForm_eq_ok_iff tokenize).mp formed
  exact ⟨_, tokenized, literal, read, rfl⟩

/-- A taproot multisig parser's value is described by the call the tokenizer read. -/
theorem calledAs_of_parseTrForm {s : List Char} {inner : String} {descriptor : TrMultiSig K}
    (parsed : (fun (internalKey, threshold, scriptKeys) =>
        (⟨internalKey, threshold, scriptKeys⟩ : TrMultiSig K)) <$>
      parseTrForm tokenize s inner = .ok descriptor) :
    ∃ ast, tokenize s = .ok ast ∧ descriptor.CalledAs ast inner := by
  obtain ⟨⟨internalKey, threshold, scriptKeys⟩, formed, rfl⟩ := Outcome.map_eq_ok.mp parsed
  obtain ⟨literal, read, tokenized⟩ := (parseTrForm_eq_ok_iff tokenize).mp formed
  exact ⟨_, tokenized, literal, read, rfl⟩

theorem shWsh_fromStr_describedBy {s : List Char} {descriptor : ShWsh K}
    (parsed : ShWsh.fromStr tokenize s = .ok descriptor) :
    ∃ ast, tokenize s = .ok ast ∧ descriptor.toStdDescr.DescribedBy ast := by
  unfold ShWsh.fromStr at parsed
  split at parsed
  · cases parsed
  · split at parsed
    · cases parsed
    · split_ifs at parsed <;> obtain ⟨value, routed, rfl⟩ := Outcome.map_eq_ok.mp parsed
      · exact calledAs_of_parseMultiForm tokenize routed
      · exact calledAs_of_parseMultiForm tokenize routed
      · exact value.elim

theorem sh_fromStr_describedBy {s : List Char} {descriptor : Sh K}
    (parsed : Sh.fromStr tokenize s = .ok descriptor) :
    ∃ ast, tokenize s = .ok ast ∧ descriptor.toStdDescr.DescribedBy ast := by
  unfold Sh.fromStr at parsed
  split at parsed
  · cases parsed
  · split_ifs at parsed <;> obtain ⟨value, routed, rfl⟩ := Outcome.map_eq_ok.mp parsed
    · -- `ShWsh` descriptors become the same `StdDescr` through `Sh`
      obtain ⟨ast, tokenized, described⟩ := shWsh_fromStr_describedBy tokenize routed
      exact ⟨ast, tokenized, by cases value <;> exact described⟩
    · exact calledAs_of_parseMultiForm tokenize routed
    · exact calledAs_of_parseMultiForm tokenize routed
    · exact value.elim

theorem wsh_fromStr_describedBy {s : List Char} {descriptor : Wsh K}
    (parsed : Wsh.fromStr tokenize s = .ok descriptor) :
    ∃ ast, tokenize s = .ok ast ∧ descriptor.toStdDescr.DescribedBy ast := by
  unfold Wsh.fromStr at parsed
  split at parsed
  · cases parsed
  · dsimp only at parsed
    split_ifs at parsed <;> obtain ⟨value, routed, rfl⟩ := Outcome.map_eq_ok.mp parsed
    · exact calledAs_of_parseMultiForm tokenize routed
    · exact calledAs_of_parseMultiForm tokenize routed
    · exact value.elim

theorem tr_fromStr_describedBy {s : List Char} {descriptor : Tr K}
    (parsed : Tr.fromStr tokenize s = .ok descriptor) :
    ∃ ast, tokenize s = .ok ast ∧ descriptor.toStdDescr.DescribedBy ast := by
  unfold Tr.fromStr at parsed
  split at parsed
  · rename_i trKey keyed
    cases parsed
    obtain ⟨key, formed, rfl⟩ := Outcome.map_eq_ok.mp keyed
    exact ⟨_, (parseKeyForm_eq_ok_iff tokenize).mp formed, rfl⟩
  · cases parsed
  · split at parsed
    · rename_i trMulti multi
      cases parsed
      exact calledAs_of_parseTrForm tokenize multi
    · cases parsed
    · split at parsed
      · rename_i trSortedMulti sortedMulti
        cases parsed
        exact calledAs_of_parseTrForm tokenize sortedMulti
      · cases parsed
      · obtain ⟨value, -, -⟩ := Outcome.map_eq_ok.mp parsed
        exact value.elim

/-- `StdDescr::from_str` is sound for the grammar of descriptor calls: whatever descriptor
it returns, on any text and with any tokenizer, the tokenizer read the trimmed text as a
call that describes it, its names and keys the descriptor's and its threshold literal one
that reads as the descriptor's threshold.  The call of every descriptor's text is in the
grammar, with its threshold in decimal. -/
theorem stdDescr_fromStr_describedBy :
    (∀ (s : List Char) (descriptor : StdDescr K), StdDescr.fromStr tokenize s = .ok descriptor →
      ∃ ast, tokenize (Str.trimStart s) = .ok ast ∧ descriptor.DescribedBy ast) ∧
    ∀ descriptor : StdDescr K, descriptor.DescribedBy descriptor.callTree := by
  refine ⟨fun s descriptor parsed => ?_, StdDescr.describedBy_callTree⟩
  unfold StdDescr.fromStr at parsed
  dsimp only at parsed
  split_ifs at parsed <;> obtain ⟨_, routed, rfl⟩ := Outcome.map_eq_ok.mp parsed
  -- `pkh` and `wpkh`: one key form
  iterate 2
    obtain ⟨key, keyed, rfl⟩ := Outcome.map_eq_ok.mp routed
    exact ⟨_, (parseKeyForm_eq_ok_iff tokenize).mp keyed, rfl⟩
  · exact sh_fromStr_describedBy tokenize routed
  · exact wsh_fromStr_describedBy tokenize routed
  · exact tr_fromStr_describedBy tokenize routed

end Parsers

/-- `wsh(multi(01,KEY))`: the threshold `1` is read from the literal `01`, which the call
in the grammar keeps as written. -/
theorem stdDescr_fromStr_describedBy_wsh_multi :
    StdDescr.fromStr (ScriptExpr.fromStr DumbKey.fromStr) "wsh(multi(01,KEY))".toList =
        .ok (.wshMulti ⟨1, ⟨[⟨⟩], by decide, by decide⟩⟩) ∧
      ∃ ast, ScriptExpr.fromStr DumbKey.fromStr (Str.trimStart "wsh(multi(01,KEY))".toList) =
          .ok ast ∧
        (StdDescr.wshMulti ⟨1, ⟨[⟨⟩], by decide, by decide⟩⟩ : StdDescr DumbKey).DescribedBy ast :=
  have parsed : StdDescr.fromStr (ScriptExpr.fromStr DumbKey.fromStr)
      "wsh(multi(01,KEY))".toList = .ok (.wshMulti ⟨1, ⟨[⟨⟩], by decide, by decide⟩⟩) := rfl
  ⟨parsed, (stdDescr_fromStr_describedBy _).1 _ _ parsed⟩

end BpStd.Descriptors
