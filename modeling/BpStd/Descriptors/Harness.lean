import BpStd.Descriptors.CallText
import BpStd.Descriptors.RoundTrip

/-!
Contract: the test harness `roundtrip` of `descriptors/src/compiler/compile.rs` passes on
the text of every modelled descriptor but `sh(wpkh(…))`, for every key type whose text the
tokenizer reads back: the tests' eleven cases, at every threshold and every list of keys.
The five script-template kinds of the source's `StdDescr` are not modelled.

Owns:
- that each descriptor's `Display` is the text of its call (`StdDescr.display_eq_text`)
  and that the call is printable;
- the harness `roundtrip`, and that it passes.

Does not own: the parsers (`Compile`, `RoundTrip`), the tokenizer's reading of a printed
call (`CallText`), or the `sh(wpkh(…))` text, which `StdDescr::from_str` rejects
(`Compile`).
-/

namespace BpStd.Descriptors

open BpStd.Rust

variable {K ε : Type}

/-! ## The text of a descriptor is the text of its call -/

section Text

variable (keyText : K → List Char)

theorem ScriptExpr.text_mk (name : String) (children : List (DescrAst K)) :
    (ScriptExpr.mk name children).text keyText = callText name (childrenText keyText children) :=
  rfl

/-- A first argument and then keys: how a threshold and a taproot internal key are
written. -/
theorem childrenText_map_key (first : DescrAst K) (keys : List K) :
    childrenText keyText (first :: keys.map .key) =
      first.text keyText ++ keys.flatMap fun key => ',' :: keyText key := by
  induction keys generalizing first with
  | nil => exact (List.append_nil _).symm
  | cons key keys inductionHypothesis =>
    rw [List.map_cons, childrenText_cons_cons, inductionHypothesis, List.flatMap_cons]
    rfl

theorem thresholdCall_text (inner : String) (threshold : Nat) (keys : List K) :
    (thresholdCall inner threshold keys).text keyText =
      thresholdText keyText inner threshold keys := by
  rw [thresholdCall, ScriptExpr.text_mk, childrenText_map_key]
  rfl

/-- Each descriptor's `Display` writes the text of the call it is. -/
theorem StdDescr.display_eq_text (descriptor : StdDescr K) :
    descriptor.display keyText = descriptor.callTree.text keyText := by
  cases descriptor <;>
    simp only [StdDescr.display, StdDescr.callTree, multiCall, trMultiCall, trThresholdText,
      Pkh.display, Wpkh.display, ShWpkh.display, Option.elim, ScriptExpr.text_mk, childrenText,
      DescrAst.text, thresholdCall_text, childrenText_map_key, List.flatMap_nil,
      List.append_nil]

end Text

theorem printable_thresholdCall (inner : String) (threshold : Nat) (keys : List K) :
    (thresholdCall inner threshold keys).printable = inner.toList.all plainChar := by
  rw [thresholdCall, ScriptExpr.printable, childrenPrintable, printable_lit_repr,
    childrenPrintable_map_key, Bool.true_and, Bool.and_true]

/-- The call of every descriptor is one the tokenizer reads back. -/
theorem StdDescr.printable_callTree (descriptor : StdDescr K) :
    descriptor.callTree.printable = true := by
  cases descriptor <;>
    simp only [StdDescr.callTree, multiCall, trMultiCall, Option.elim,
      ScriptExpr.printable_mk, childrenPrintable_cons, DescrAst.printable_script,
      DescrAst.printable_key, printable_thresholdCall, childrenPrintable, Bool.and_true,
      Bool.true_and] <;>
    rfl

/-! ## The harness -/

section Harness

variable (keyText : K → List Char)
  (tokenize : List Char → Except (DescrParseError ε) (ScriptExpr K))

/-- `roundtrip(s, expect)` of the tests of `compile.rs`: `StdDescr::from_str(s)` and
`D::from_str(s)` both succeed, both write `s` back, and both are `expect`; `D` is the type
`expect` wraps, and its `Display` is `StdDescr`'s on that variant. -/
def roundtrip (s : List Char) (expect : StdDescr K) : Prop :=
  ∃ d1 d2, StdDescr.fromStr tokenize s = .ok d1 ∧ expect.variantFromStr tokenize s = .ok d2 ∧
    s = d1.display keyText ∧ s = d2.display keyText ∧ d1 = expect ∧ d2 = expect

/-- The harness passes on the text of every modelled descriptor but `sh(wpkh(…))`, the
kinds its eleven tests exercise, for every key type whose text the tokenizer reads back as
the key: the tests hold at every threshold and every list of keys, not only at `2` and
three `KEY`s. -/
theorem roundtrip_display {keyFromStr : List Char → Except ε K}
    (codec : PlainKeyText keyText keyFromStr) (expect : StdDescr K)
    (notShWpkh : ∀ inner, expect ≠ .shWpkh inner) :
    roundtrip keyText (ScriptExpr.fromStr keyFromStr) (expect.display keyText) expect := by
  have reads : ScriptExpr.fromStr keyFromStr (expect.display keyText) = .ok expect.callTree := by
    rw [StdDescr.display_eq_text]
    exact scriptExpr_fromStr_text codec _ expect.printable_callTree
  obtain ⟨fromStd, fromVariant⟩ := fromStr_display_of_reads _ keyText expect notShWpkh reads
  exact ⟨expect, expect, fromStd, fromVariant, rfl, rfl, rfl, rfl⟩

end Harness

/-- `DumbKey` of the tests writes a key text the tokenizer reads back. -/
theorem dumbKey_plainKeyText : PlainKeyText DumbKey.display DumbKey.fromStr :=
  ⟨fun _ => rfl, fun _ => rfl, fun _ => rfl⟩

/-- The test `sh_multi` of `compile.rs`. -/
theorem roundtrip_sh_multi :
    PlainKeyText DumbKey.display DumbKey.fromStr ∧
      roundtrip DumbKey.display (ScriptExpr.fromStr DumbKey.fromStr)
        "sh(multi(2,KEY,KEY,KEY))".toList
        (.shMulti ⟨2, ⟨[⟨⟩, ⟨⟩, ⟨⟩], by decide, by decide⟩⟩) := by
  have passes := roundtrip_display DumbKey.display dumbKey_plainKeyText
    (.shMulti ⟨2, ⟨[⟨⟩, ⟨⟩, ⟨⟩], by decide, by decide⟩⟩) fun _ => StdDescr.noConfusion
  have written :
      (StdDescr.shMulti ⟨2, ⟨[⟨⟩, ⟨⟩, ⟨⟩], by decide, by decide⟩⟩ : StdDescr DumbKey).display
        DumbKey.display = "sh(multi(2,KEY,KEY,KEY))".toList := by decide
  rw [written] at passes
  exact ⟨dumbKey_plainKeyText, passes⟩

end BpStd.Descriptors
