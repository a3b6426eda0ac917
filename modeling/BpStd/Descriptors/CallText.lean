import BpStd.Descriptors.Tokenizer

/-!
Contract: the text of a call in the spec's descriptor grammar, and that the tokenizer
`ScriptExpr.fromStr` reads it back as the call, for every call whose names and
arguments it can write.

Owns: the printer `ScriptExpr.text` (`name(arg,…,arg)`), `printable` (plain names,
decimal literals, no trees), `PlainKeyText` (a key text the tokenizer reads back as the
key), the tokenizer's steps on the idle state, and the round trip, proved by one
structural recursion over the call, its children and each child.

Does not own: the descriptors' texts, which `Harness` shows are printed calls.
-/

namespace BpStd.Descriptors

open BpStd.Rust

variable {K ε : Type}

/-! ## The text of a call -/

/-- A character the tokenizer copies into the argument it reads: no delimiter, no
opening brace and no whitespace. -/
def plainChar (c : Char) : Bool :=
  c != '(' && c != ')' && c != ',' && c != '{' && !Str.isWhitespace c

section Text

variable (keyText : K → List Char)

mutual

/-- The text of a call, `name(arg,…,arg)`: the form in which the descriptors' `Display`
impls write themselves. -/
def ScriptExpr.text : ScriptExpr K → List Char
  | .mk name children => name.toList ++ '(' :: childrenText children ++ [')']

/-- The arguments of a call, separated by commas. -/
def childrenText : List (DescrAst K) → List Char
  | [] => []
  | [child] => DescrAst.text child
  | child :: rest => DescrAst.text child ++ ',' :: childrenText rest

/-- The text of one argument; a key is written by the key type's `Display`. -/
def DescrAst.text : DescrAst K → List Char
  | .script expr => ScriptExpr.text expr
  | .tree text => text.toList
  | .key key => keyText key
  | .lit text => text.toList

end

theorem childrenText_cons_cons (child next : DescrAst K) (more : List (DescrAst K)) :
    childrenText keyText (child :: next :: more) =
      child.text keyText ++ ',' :: childrenText keyText (next :: more) := rfl

end Text

mutual

/-- A call the printer writes so that the tokenizer reads it back: plain names, decimal
literals and no tree; keys are the key type's concern. -/
def ScriptExpr.printable : ScriptExpr K → Bool
  | .mk name children => name.toList.all plainChar && childrenPrintable children

/-- Every argument is printable. -/
def childrenPrintable : List (DescrAst K) → Bool
  | [] => true
  | child :: rest => DescrAst.printable child && childrenPrintable rest

/-- A printable argument. -/
def DescrAst.printable : DescrAst K → Bool
  | .script expr => ScriptExpr.printable expr
  | .tree _ => false
  | .key _ => true
  | .lit text => text.toList != [] && text.toList.all Char.isDigit && text.toList.all plainChar

end

@[simp]
theorem ScriptExpr.printable_mk (name : String) (children : List (DescrAst K)) :
    (ScriptExpr.mk name children).printable =
      (name.toList.all plainChar && childrenPrintable children) :=
  rfl

@[simp]
theorem childrenPrintable_cons (child : DescrAst K) (rest : List (DescrAst K)) :
    childrenPrintable (child :: rest) = (child.printable && childrenPrintable rest) :=
  rfl

@[simp]
theorem DescrAst.printable_script (expr : ScriptExpr K) :
    (DescrAst.script expr).printable = expr.printable :=
  rfl

@[simp]
theorem DescrAst.printable_key (key : K) : (DescrAst.key key).printable = true :=
  rfl

/-- A key text the tokenizer reads back as the key: plain, not a decimal literal, and
read by the key type's `from_str`. -/
structure PlainKeyText (keyText : K → List Char) (keyFromStr : List Char → Except ε K) :
    Prop where
  plain : ∀ key, (keyText key).all plainChar = true
  notDecimal : ∀ key, (keyText key).all Char.isDigit = false
  fromStr_keyText : ∀ key, keyFromStr (keyText key) = .ok key

theorem digitChar_plain : ∀ digit, digit < 10 → plainChar (Nat.digitChar digit) = true := by
  decide

/-- The decimal digits of a number are plain. -/
theorem toDigits_plain (n : Nat) : ∀ c ∈ Nat.toDigits 10 n, plainChar c = true := by
  induction n using Nat.strongRecOn with
  | ind n inductionHypothesis =>
    rw [toDigits_eq]
    intro c member
    rcases List.mem_append.mp member with front | last
    · split at front
      · cases front
      · exact inductionHypothesis (n / 10) (by omega) c front
    · rw [List.mem_singleton.mp last]
      exact digitChar_plain _ (Nat.mod_lt _ (by decide))

/-- A number written in decimal is a printable literal. -/
theorem printable_lit_repr (n : Nat) :
    (DescrAst.lit (Nat.repr n) : DescrAst K).printable = true := by
  have nonempty : Nat.toDigits 10 n ≠ [] := by
    rw [toDigits_eq]
    exact List.append_ne_nil_of_right_ne_nil _ (List.cons_ne_nil _ _)
  show (Nat.toDigits 10 n != [] && (Nat.toDigits 10 n).all Char.isDigit &&
    (Nat.toDigits 10 n).all plainChar) = true
  rw [Bool.and_eq_true, Bool.and_eq_true, bne_iff_ne, List.all_eq_true, List.all_eq_true]
  exact ⟨⟨nonempty, (toDigits_isDigit_and_accumulate n).1⟩, toDigits_plain n⟩

/-- Keys are printable: writing them is the key type's concern. -/
theorem childrenPrintable_map_key (keys : List K) : childrenPrintable (keys.map .key) = true := by
  induction keys with
  | nil => rfl
  | cons key keys inductionHypothesis => exact inductionHypothesis

/-! ## The tokenizer between two arguments -/

theorem trimStart_of_plain {text : List Char} (plain : text.all plainChar = true) :
    Str.trimStart text = text := by
  cases text with
  | nil => rfl
  | cons c rest =>
    have first : Str.isWhitespace c = false := by
      simp only [List.all_cons, plainChar, Bool.and_eq_true, Bool.not_eq_true'] at plain
      exact plain.1.2
    simp only [Str.trimStart, first, Bool.false_eq_true, not_false_eq_true,
      List.dropWhile_cons_of_neg]

theorem trim_of_plain {text : List Char} (plain : text.all plainChar = true) :
    trim text = text := by
  have reversed : text.reverse.all plainChar = true := by
    simpa only [List.all_reverse, List.all_eq_true] using plain
  rw [trim, trimStart_of_plain plain, trimStart_of_plain reversed, List.reverse_reverse]

/-- The state after the call `call` closes above the open calls `frames`: the finished
text when none is open, else `call` appended to the innermost. -/
def closeInto : List (Frame K) → ScriptExpr K → TokenizerState K
  | [], call => ⟨[], [], 0, some call⟩
  | frame :: frames, call => ⟨addChild (some (.script call)) (frame :: frames), [], 0, none⟩

section Steps

variable (keyFromStr : List Char → Except ε K)

/-- One step of the pass that does not fail. -/
theorem tokenRun_cons {state next : TokenizerState K} {c : Char} (rest : List Char)
    (step : tokenStep keyFromStr state c = .ok next) :
    tokenRun keyFromStr state (c :: rest) = tokenRun keyFromStr next rest := by
  rw [tokenRun, step]

theorem tokenStep_plain {c : Char} (plain : plainChar c = true) (frames : List (Frame K))
    (buffer : List Char) :
    tokenStep keyFromStr ⟨frames, buffer, 0, none⟩ c =
      .ok ⟨frames, buffer ++ [c], 0, none⟩ := by
  simp only [plainChar, Bool.and_eq_true, bne_iff_ne, ne_eq] at plain
  obtain ⟨⟨⟨⟨notOpen, notClose⟩, notComma⟩, notBrace⟩, -⟩ := plain
  simp only [tokenStep, lt_self_iff_false, ↓reduceIte, Option.isSome_none, Bool.false_eq_true,
    notBrace, notOpen, notComma, notClose, decide_False, Bool.or_self]

/-- Plain text goes to the argument being read. -/
theorem tokenRun_plain {text : List Char} (plain : text.all plainChar = true)
    (frames : List (Frame K)) (buffer rest : List Char) :
    tokenRun keyFromStr ⟨frames, buffer, 0, none⟩ (text ++ rest) =
      tokenRun keyFromStr ⟨frames, buffer ++ text, 0, none⟩ rest := by
  induction text generalizing buffer with
  | nil => rw [List.nil_append, List.append_nil]
  | cons c text inductionHypothesis =>
    rw [List.all_cons, Bool.and_eq_true] at plain
    rw [List.cons_append, tokenRun_cons keyFromStr _ (tokenStep_plain keyFromStr plain.1 ..),
      inductionHypothesis plain.2, List.append_assoc, List.singleton_append]

theorem tokenStep_open (frames : List (Frame K)) (buffer : List Char) :
    tokenStep keyFromStr ⟨frames, buffer, 0, none⟩ '(' =
      .ok ⟨⟨String.mk (trim buffer), []⟩ :: frames, [], 0, none⟩ := by
  simp only [tokenStep, lt_self_iff_false, ↓reduceIte, Option.isSome_none, Bool.false_eq_true,
    Char.reduceEq]

theorem addChild_none (frames : List (Frame K)) : addChild none frames = frames := by
  cases frames <;> rfl

/-- A comma or a closing parenthesis first adds the argument read before it. -/
theorem tokenStep_flush {buffer : List Char} {leaf : Option (DescrAst K)}
    (read : leafOf keyFromStr buffer = .ok leaf) {sep : Char} (isSep : sep = ',' ∨ sep = ')')
    (frames : List (Frame K)) :
    tokenStep keyFromStr ⟨frames, buffer, 0, none⟩ sep =
      tokenStep keyFromStr ⟨addChild leaf frames, [], 0, none⟩ sep := by
  have empty : leafOf keyFromStr ([] : List Char) = (.ok none : Except ε _) := rfl
  rcases isSep with rfl | rfl <;>
    simp only [tokenStep, lt_self_iff_false, ↓reduceIte, Option.isSome_none, Bool.false_eq_true,
      Char.reduceEq, decide_True, decide_False, Bool.or_false, Bool.or_true, read, empty,
      addChild_none]

theorem tokenStep_comma {frames : List (Frame K)} (nonempty : frames ≠ []) :
    tokenStep keyFromStr ⟨frames, [], 0, none⟩ ',' = .ok ⟨frames, [], 0, none⟩ := by
  obtain ⟨frame, frames, rfl⟩ := List.exists_cons_of_ne_nil nonempty
  rfl

theorem tokenStep_close (frame : Frame K) (frames : List (Frame K)) :
    tokenStep keyFromStr ⟨frame :: frames, [], 0, none⟩ ')' =
      .ok (closeInto frames ⟨frame.name, frame.children⟩) := by
  cases frames <;> rfl

end Steps

/-! ## Arguments -/

theorem leafOf_key {keyText : K → List Char} {keyFromStr : List Char → Except ε K}
    (codec : PlainKeyText keyText keyFromStr) (key : K) :
    leafOf keyFromStr (keyText key) = .ok (some (.key key)) := by
  have plain := codec.plain key
  have notDecimal := codec.notDecimal key
  have read := codec.fromStr_keyText key
  rw [leafOf, trim_of_plain plain]
  generalize keyText key = text at plain notDecimal read
  split
  · cases notDecimal
  · simp [plainChar] at plain
  · rw [if_neg (by rw [notDecimal]; decide), read]
    rfl

theorem leafOf_lit (keyFromStr : List Char → Except ε K) {text : String}
    (printable : (DescrAst.lit text : DescrAst K).printable = true) :
    leafOf keyFromStr text.toList = .ok (some (.lit text)) := by
  simp only [DescrAst.printable, Bool.and_eq_true, bne_iff_ne, ne_eq] at printable
  obtain ⟨⟨nonempty, digits⟩, plain⟩ := printable
  rw [leafOf, trim_of_plain plain]
  split
  · exact absurd ‹_› nonempty
  · rename_i rest brace
    rw [brace] at plain
    simp [plainChar] at plain
  · rw [if_pos digits]
    rfl

/-! ## The round trip -/

section RoundTrip

variable {keyText : K → List Char} {keyFromStr : List Char → Except ε K}

mutual

/-- The text of a printable call, read from the idle state, closes the call above the
calls already open. -/
theorem tokenRun_text (codec : PlainKeyText keyText keyFromStr) :
    ∀ (ast : ScriptExpr K), ast.printable = true →
      ∀ (frames : List (Frame K)) (rest : List Char),
      tokenRun keyFromStr ⟨frames, [], 0, none⟩ (ast.text keyText ++ rest) =
        tokenRun keyFromStr (closeInto frames ast) rest
  | .mk name children, printable, frames, rest => by
    rw [ScriptExpr.printable, Bool.and_eq_true] at printable
    rw [ScriptExpr.text, List.append_assoc, List.append_assoc,
      tokenRun_plain keyFromStr printable.1, List.nil_append, List.cons_append,
      tokenRun_cons keyFromStr _ (tokenStep_open keyFromStr ..), trim_of_plain printable.1,
      List.singleton_append, tokenRun_children codec children printable.2]
    rfl

/-- The arguments of a call and its closing parenthesis close it with those arguments. -/
theorem tokenRun_children (codec : PlainKeyText keyText keyFromStr) :
    ∀ (children : List (DescrAst K)), childrenPrintable children = true →
      ∀ (frame : Frame K) (frames : List (Frame K)) (rest : List Char),
      tokenRun keyFromStr ⟨frame :: frames, [], 0, none⟩
          (childrenText keyText children ++ ')' :: rest) =
        tokenRun keyFromStr (closeInto frames ⟨frame.name, frame.children ++ children⟩) rest
  | [], _, frame, frames, rest => by
    rw [childrenText, List.nil_append, tokenRun_cons keyFromStr _ (tokenStep_close keyFromStr ..),
      List.append_nil]
  | [child], printable, frame, frames, rest => by
    rw [childrenPrintable, Bool.and_eq_true] at printable
    rw [childrenText, tokenRun_child codec child printable.1 frame frames (.inr rfl),
      tokenRun_cons keyFromStr _ (tokenStep_close keyFromStr ..)]
  | child :: next :: more, printable, frame, frames, rest => by
    rw [childrenPrintable, Bool.and_eq_true] at printable
    rw [childrenText_cons_cons, List.append_assoc, List.cons_append,
      tokenRun_child codec child printable.1 frame frames (.inl rfl),
      tokenRun_cons keyFromStr _ (tokenStep_comma keyFromStr (List.cons_ne_nil _ _)),
      tokenRun_children codec (next :: more) printable.2, List.append_assoc,
      List.singleton_append]

/-- One argument and the separator after it add the argument to the innermost call. -/
theorem tokenRun_child (codec : PlainKeyText keyText keyFromStr) :
    ∀ (child : DescrAst K), child.printable = true →
      ∀ (frame : Frame K) (frames : List (Frame K)) {sep : Char}, (sep = ',' ∨ sep = ')') →
      ∀ rest : List Char,
        tokenRun keyFromStr ⟨frame :: frames, [], 0, none⟩ (child.text keyText ++ sep :: rest) =
          tokenRun keyFromStr
            ⟨{ frame with children := frame.children ++ [child] } :: frames, [], 0, none⟩
            (sep :: rest)
  | .script expr, printable, frame, frames, _, _, rest => by
    rw [DescrAst.text, tokenRun_text codec expr printable (frame :: frames)]
    rfl
  | .tree _, printable, _, _, _, _, _ => absurd printable Bool.false_ne_true
  | .key key, _, frame, frames, _, isSep, rest => by
    rw [DescrAst.text, tokenRun_plain keyFromStr (codec.plain key), List.nil_append, tokenRun,
      tokenStep_flush keyFromStr (leafOf_key codec key) isSep]
    rfl
  | .lit text, printable, frame, frames, _, isSep, rest => by
    have plain : text.toList.all plainChar = true := by
      rw [DescrAst.printable, Bool.and_eq_true] at printable
      exact printable.2
    rw [DescrAst.text, tokenRun_plain keyFromStr plain, List.nil_append, tokenRun,
      tokenStep_flush keyFromStr (leafOf_lit keyFromStr printable) isSep]
    rfl

end

/-- The tokenizer reads the text of every printable call back as the call. -/
theorem scriptExpr_fromStr_text (codec : PlainKeyText keyText keyFromStr) (ast : ScriptExpr K)
    (printable : ast.printable = true) :
    ScriptExpr.fromStr keyFromStr (ast.text keyText) = .ok ast := by
  have run := tokenRun_text codec ast printable [] []
  rw [List.append_nil] at run
  rw [ScriptExpr.fromStr, run]
  rfl

end RoundTrip

end BpStd.Descriptors
