import BpStd.Descriptors.Accepted

/-!
Contract: `StdDescr::from_str` of `descriptors/src/compiler/compile.rs`, and each
descriptor's own `from_str`, read back the text `Display` writes, for every modelled
descriptor kind but `sh(wpkh(…))`: the key-only kinds, the six `sh`/`wsh`/`sh(wsh)`
multisig kinds and the three taproot kinds.  The five script-template kinds (`Raw`,
`ShScript`, `WshScript`, `ShWshScript`, `TrTree`) are not modelled.

Owns: one lemma per parser layer taking the call of a descriptor's text apart (key forms,
`parse_multi_form`, `parse_tr_form`, and `Tr::from_str` trying `TrKey`, `TrMulti` and
`TrSortedMulti` in turn), one lemma per route of the dispatchers `StdDescr`, `Sh`,
`ShWsh` and `Wsh` on the text's prefix, `D::from_str` as the tests' harness calls it, and
the round trip assembled from them.

Does not own: the call each descriptor's text is (`StdDescr.callTree`, in `Accepted`);
the tokenizer, a parameter: that it reads a descriptor's text as its call is the round
trip's hypothesis, which `Harness` discharges for the spec's tokenizer.  The
`sh(wpkh(…))` text is the one exception (`stdDescr_fromStr_display_shWpkh` in `Compile`).
-/

namespace BpStd.Descriptors

open BpStd.Rust

variable {K : Type}

section Parsers

variable {ε : Type} (tokenize : List Char → Except (DescrParseError ε) (ScriptExpr K))

/-! ## Each layer on its call -/

theorem parseMultiForm_multiCall {s : List Char} {outer : String} {medium : Option String}
    {inner : String} {descriptor : MultiSig K}
    (tokenized : tokenize s = .ok (multiCall outer medium inner descriptor)) :
    parseMultiForm tokenize s outer medium inner = .ok (descriptor.threshold, descriptor.keys) :=
  (parseMultiForm_eq_ok_iff tokenize).mpr ⟨_, u4FromStr_repr _, tokenized⟩

theorem parseTrForm_trMultiCall {s : List Char} {inner : String} {descriptor : TrMultiSig K}
    (tokenized : tokenize s = .ok (trMultiCall inner descriptor)) :
    parseTrForm tokenize s inner =
      .ok (descriptor.internalKey, descriptor.threshold, descriptor.scriptKeys) :=
  (parseTrForm_eq_ok_iff tokenize).mpr ⟨_, u16FromStr_repr _, tokenized⟩

theorem tr_fromStr_key {s : List Char} {key : K}
    (tokenized : tokenize s = .ok (.mk "tr" [.key key])) :
    Tr.fromStr tokenize s = .ok (.keyOnly ⟨key⟩) := by
  rw [Tr.fromStr, TrKey.fromStr, (parseKeyForm_eq_ok_iff tokenize).mpr tokenized]
  rfl

/-- `TrKey::from_str` rejects a call with a threshold script. -/
theorem trKey_fromStr_trMultiCall {s : List Char} {inner : String} {descriptor : TrMultiSig K}
    (tokenized : tokenize s = .ok (trMultiCall inner descriptor)) :
    TrKey.fromStr tokenize s = .err (.invalidArgs "tr") := by
  rw [TrKey.fromStr, parseKeyForm, tokenized]
  rfl

theorem tr_fromStr_trMultiCall {s : List Char} {descriptor : TrMultiSig K}
    (tokenized : tokenize s = .ok (trMultiCall "multi_a" descriptor)) :
    Tr.fromStr tokenize s = .ok (.multi descriptor) := by
  rw [Tr.fromStr, trKey_fromStr_trMultiCall tokenize tokenized, TrMulti.fromStr,
    parseTrForm_trMultiCall tokenize tokenized]
  rfl

/-- `tr(KEY,sortedmulti_a(…))` is rejected by `TrKey` and `TrMulti` before
`TrSortedMulti` reads it. -/
theorem tr_fromStr_trSortedMultiCall {s : List Char} {descriptor : TrMultiSig K}
    (tokenized : tokenize s = .ok (trMultiCall "sortedmulti_a" descriptor)) :
    Tr.fromStr tokenize s = .ok (.sortedMulti descriptor) := by
  have notMulti : TrMulti.fromStr tokenize s = .err (.invalidArgs "multi_a") := by
    rw [TrMulti.fromStr, parseTrForm, tokenized]
    rfl
  rw [Tr.fromStr, trKey_fromStr_trMultiCall tokenize tokenized, notMulti, TrSortedMulti.fromStr,
    parseTrForm_trMultiCall tokenize tokenized]
  rfl

/-! ## Routing on the text -/

theorem stdDescr_fromStr_pkh (inner : List Char) :
    StdDescr.fromStr tokenize (callText "pkh" inner) =
      .pkh <$> Pkh.fromStr tokenize (callText "pkh" inner) := rfl

theorem stdDescr_fromStr_wpkh (inner : List Char) :
    StdDescr.fromStr tokenize (callText "wpkh" inner) =
      .wpkh <$> Wpkh.fromStr tokenize (callText "wpkh" inner) := rfl

theorem stdDescr_fromStr_sh (inner : List Char) :
    StdDescr.fromStr tokenize (callText "sh" inner) =
      Sh.toStdDescr <$> Sh.fromStr tokenize (callText "sh" inner) := rfl

theorem stdDescr_fromStr_wsh (inner : List Char) :
    StdDescr.fromStr tokenize (callText "wsh" inner) =
      Wsh.toStdDescr <$> Wsh.fromStr tokenize (callText "wsh" inner) := rfl

theorem stdDescr_fromStr_tr (inner : List Char) :
    StdDescr.fromStr tokenize (callText "tr" inner) =
      Tr.toStdDescr <$> Tr.fromStr tokenize (callText "tr" inner) := rfl

theorem sh_fromStr_wsh (inner : List Char) :
    Sh.fromStr tokenize (callText "sh" (callText "wsh" inner)) =
      ShWsh.toSh <$> ShWsh.fromStr tokenize (callText "sh" (callText "wsh" inner)) := rfl

theorem sh_fromStr_sortedmulti (inner : List Char) :
    Sh.fromStr tokenize (callText "sh" (callText "sortedmulti" inner)) =
      .shSortedMulti <$>
        ShSortedMulti.fromStr tokenize (callText "sh" (callText "sortedmulti" inner)) := rfl

theorem sh_fromStr_multi (inner : List Char) :
    Sh.fromStr tokenize (callText "sh" (callText "multi" inner)) =
      .shMulti <$> ShMulti.fromStr tokenize (callText "sh" (callText "multi" inner)) := rfl

theorem shWsh_fromStr_multi (inner : List Char) :
    ShWsh.fromStr tokenize (callText "sh" (callText "wsh" (callText "multi" inner))) =
      .multi <$>
        ShWshMulti.fromStr tokenize (callText "sh" (callText "wsh" (callText "multi" inner))) := rfl

theorem shWsh_fromStr_sortedmulti (inner : List Char) :
    ShWsh.fromStr tokenize (callText "sh" (callText "wsh" (callText "sortedmulti" inner))) =
      .sortedMulti <$> ShWshSortedMulti.fromStr tokenize
        (callText "sh" (callText "wsh" (callText "sortedmulti" inner))) := rfl

theorem wsh_fromStr_multi (inner : List Char) :
    Wsh.fromStr tokenize (callText "wsh" (callText "multi" inner)) =
      .multi <$> WshMulti.fromStr tokenize (callText "wsh" (callText "multi" inner)) := rfl

theorem wsh_fromStr_sortedmulti (inner : List Char) :
    Wsh.fromStr tokenize (callText "wsh" (callText "sortedmulti" inner)) =
      .sortedMulti <$>
        WshSortedMulti.fromStr tokenize (callText "wsh" (callText "sortedmulti" inner)) := rfl

/-! ## The round trip -/

/-- `D::from_str(s)` of the tests' harness followed by `into()`, `D` the type of the
descriptor `expect` wraps. -/
def StdDescr.variantFromStr :
    StdDescr K → List Char → Outcome (DescrParseError ε) (StdDescr K)
  | .pkh _, s => .pkh <$> Pkh.fromStr tokenize s
  | .shMulti _, s => .shMulti <$> ShMulti.fromStr tokenize s
  | .shSortedMulti _, s => .shSortedMulti <$> ShSortedMulti.fromStr tokenize s
  | .wpkh _, s => .wpkh <$> Wpkh.fromStr tokenize s
  | .wshMulti _, s => .wshMulti <$> WshMulti.fromStr tokenize s
  | .wshSortedMulti _, s => .wshSortedMulti <$> WshSortedMulti.fromStr tokenize s
  | .shWpkh _, s => .shWpkh <$> ShWpkh.fromStr tokenize s
  | .shWshMulti _, s => .shWshMulti <$> ShWshMulti.fromStr tokenize s
  | .shWshSortedMulti _, s => .shWshSortedMulti <$> ShWshSortedMulti.fromStr tokenize s
  | .trKey _, s => .trKey <$> TrKey.fromStr tokenize s
  | .trMulti _, s => .trMulti <$> TrMulti.fromStr tokenize s
  | .trSortedMulti _, s => .trSortedMulti <$> TrSortedMulti.fromStr tokenize s

/-- `StdDescr::from_str` and the descriptor's own `from_str` both read back the text of
every descriptor but `sh(wpkh(…))`, once the tokenizer reads it as the call it writes. -/
theorem fromStr_display_of_reads (keyText : K → List Char) (descriptor : StdDescr K)
    (notShWpkh : ∀ inner, descriptor ≠ .shWpkh inner)
    (reads : tokenize (descriptor.display keyText) = .ok descriptor.callTree) :
    StdDescr.fromStr tokenize (descriptor.display keyText) = .ok descriptor ∧
      descriptor.variantFromStr tokenize (descriptor.display keyText) = .ok descriptor := by
  cases descriptor <;> simp only [StdDescr.display, Pkh.display, Wpkh.display, thresholdText,
    trThresholdText, StdDescr.callTree, StdDescr.variantFromStr] at reads ⊢
  case pkh descriptor =>
    rw [stdDescr_fromStr_pkh, Pkh.fromStr, (parseKeyForm_eq_ok_iff tokenize).mpr reads]
    exact ⟨rfl, rfl⟩
  case wpkh descriptor =>
    rw [stdDescr_fromStr_wpkh, Wpkh.fromStr, (parseKeyForm_eq_ok_iff tokenize).mpr reads]
    exact ⟨rfl, rfl⟩
  case shWpkh descriptor => exact absurd rfl (notShWpkh descriptor)
  case shMulti descriptor =>
    rw [stdDescr_fromStr_sh, sh_fromStr_multi, ShMulti.fromStr,
      parseMultiForm_multiCall tokenize reads]
    exact ⟨rfl, rfl⟩
  case shSortedMulti descriptor =>
    rw [stdDescr_fromStr_sh, sh_fromStr_sortedmulti, ShSortedMulti.fromStr,
      parseMultiForm_multiCall tokenize reads]
    exact ⟨rfl, rfl⟩
  case wshMulti descriptor =>
    rw [stdDescr_fromStr_wsh, wsh_fromStr_multi, WshMulti.fromStr,
      parseMultiForm_multiCall tokenize reads]
    exact ⟨rfl, rfl⟩
  case wshSortedMulti descriptor =>
    rw [stdDescr_fromStr_wsh, wsh_fromStr_sortedmulti, WshSortedMulti.fromStr,
      parseMultiForm_multiCall tokenize reads]
    exact ⟨rfl, rfl⟩
  case shWshMulti descriptor =>
    rw [stdDescr_fromStr_sh, sh_fromStr_wsh, shWsh_fromStr_multi, ShWshMulti.fromStr,
      parseMultiForm_multiCall tokenize reads]
    exact ⟨rfl, rfl⟩
  case shWshSortedMulti descriptor =>
    rw [stdDescr_fromStr_sh, sh_fromStr_wsh, shWsh_fromStr_sortedmulti, ShWshSortedMulti.fromStr,
      parseMultiForm_multiCall tokenize reads]
    exact ⟨rfl, rfl⟩
  case trKey descriptor =>
    rw [stdDescr_fromStr_tr, tr_fromStr_key tokenize reads, TrKey.fromStr,
      (parseKeyForm_eq_ok_iff tokenize).mpr reads]
    exact ⟨rfl, rfl⟩
  case trMulti descriptor =>
    rw [stdDescr_fromStr_tr, tr_fromStr_trMultiCall tokenize reads, TrMulti.fromStr,
      parseTrForm_trMultiCall tokenize reads]
    exact ⟨rfl, rfl⟩
  case trSortedMulti descriptor =>
    rw [stdDescr_fromStr_tr, tr_fromStr_trSortedMultiCall tokenize reads,
      TrSortedMulti.fromStr, parseTrForm_trMultiCall tokenize reads]
    exact ⟨rfl, rfl⟩

/-- `StdDescr::from_str` reads back the text of every modelled descriptor but `sh(wpkh(…))`,
with any key text and any tokenizer that reads the text as the call it writes. -/
theorem stdDescr_fromStr_display (keyText : K → List Char) (descriptor : StdDescr K)
    (notShWpkh : ∀ inner, descriptor ≠ .shWpkh inner)
    (reads : tokenize (descriptor.display keyText) = .ok descriptor.callTree) :
    StdDescr.fromStr tokenize (descriptor.display keyText) = .ok descriptor :=
  (fromStr_display_of_reads tokenize keyText descriptor notShWpkh reads).1

end Parsers

/-- `tr(KEY,sortedmulti_a(2,KEY,KEY,KEY))`, which reaches `TrSortedMulti::from_str` after
`TrKey` and `TrMulti` have rejected it. -/
theorem stdDescr_fromStr_display_tr_sorted_multi :
    ScriptExpr.fromStr DumbKey.fromStr
        ((StdDescr.trSortedMulti ⟨⟨⟩, 2, ⟨[⟨⟩, ⟨⟩, ⟨⟩], by decide, by decide⟩⟩).display
          DumbKey.display) =
      .ok (StdDescr.trSortedMulti ⟨⟨⟩, 2, ⟨[⟨⟩, ⟨⟩, ⟨⟩], by decide, by decide⟩⟩).callTree ∧
    StdDescr.fromStr (ScriptExpr.fromStr DumbKey.fromStr)
        ((StdDescr.trSortedMulti ⟨⟨⟩, 2, ⟨[⟨⟩, ⟨⟩, ⟨⟩], by decide, by decide⟩⟩).display
          DumbKey.display) =
      .ok (StdDescr.trSortedMulti ⟨⟨⟩, 2, ⟨[⟨⟩, ⟨⟩, ⟨⟩], by decide, by decide⟩⟩) :=
  have reads : ScriptExpr.fromStr DumbKey.fromStr
      ((StdDescr.trSortedMulti ⟨⟨⟩, 2, ⟨[⟨⟩, ⟨⟩, ⟨⟩], by decide, by decide⟩⟩).display
        DumbKey.display) =
      .ok (StdDescr.trSortedMulti ⟨⟨⟩, 2, ⟨[⟨⟩, ⟨⟩, ⟨⟩], by decide, by decide⟩⟩).callTree := rfl
  ⟨reads, stdDescr_fromStr_display _ _ _ (fun _ differ => nomatch differ) reads⟩

end BpStd.Descriptors
