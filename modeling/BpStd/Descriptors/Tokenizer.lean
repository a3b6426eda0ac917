import BpStd.Rust.Num
import BpStd.Rust.Str
import BpStd.Descriptors.Ast
import BpStd.Descriptors.Descriptor

/-!
Contract: the error type of the descriptor parsers, a tokenizer for descriptor strings
modelled from the spec, and the key type of the tests of `compile.rs`.

Owns: `DescrParseError` (outside `src/`: the variants `compile.rs` builds and the errors
its `?` converts); `ScriptExpr.fromStr`, one left-to-right pass over the characters with a stack of open
calls that builds the `ScriptExpr` of a string `name(arg, …)`: an argument holding a
call is a `Script`, one in braces a `Tree`, a decimal number a `Lit`, anything else a
`Key` read by the key type's `from_str`.  Names and arguments are trimmed of whitespace
and an empty argument adds no child.  `DumbKey`, the tests' key, reads and writes `KEY`.

Does not own: what the parsers do with the tree.  No theorem about a parser assumes
this tokenizer: they take any tokenizer and state what they need of it, and this one
shows that those assumptions can be met.
-/

namespace BpStd.Descriptors

open BpStd.Rust

/-- Modelled from the spec: `DescrParseError`, the variants `compile.rs` builds, and the errors its `?` converts:
a key's, a threshold's and a key vector's. -/
inductive DescrParseError (ε : Type) where
  | invalidArgs (name : String)
  | notSupported (what : String)
  | invalidScriptExpr (text : List Char)
  | noRequiredScript (name : String)
  | key (error : ε)
  | threshold (error : ParseIntError)
  | confinement (error : ConfinementError)

variable {K ε : Type}

/-- Modelled from the spec: an open call on the tokenizer's stack. -/
structure Frame (K : Type) where
  name : String
  children : List (DescrAst K)

/-- Modelled from the spec: the tokenizer's state between two characters. -/
structure TokenizerState (K : Type) where
  frames : List (Frame K)
  buffer : List Char
  braces : Nat
  done : Option (ScriptExpr K)

/-- The text with the whitespace around it removed. -/
def trim (text : List Char) : List Char := (Str.trimStart (Str.trimStart text).reverse).reverse

/-- Modelled from the spec: the argument a finished piece of text is, if any. -/
def leafOf (keyFromStr : List Char → Except ε K) (text : List Char) :
    Except ε (Option (DescrAst K)) :=
  match trim text with
  | [] => .ok none
  | '{' :: rest => .ok (some (.tree (String.mk ('{' :: rest))))
  | arg =>
      if arg.all Char.isDigit then .ok (some (.lit (String.mk arg)))
      else (keyFromStr arg).map fun key => some (.key key)

/-- Modelled from the spec: the innermost open call with one more child. -/
def addChild (child : Option (DescrAst K)) : List (Frame K) → List (Frame K)
  | [] => []
  | frame :: frames =>
      match child with
      | none => frame :: frames
      | some child => { frame with children := frame.children ++ [child] } :: frames

/-- Modelled from the spec: one character of the pass. -/
def tokenStep (keyFromStr : List Char → Except ε K) (state : TokenizerState K) (c : Char) :
    Except (Option ε) (TokenizerState K) :=
  if 0 < state.braces then
    let braces := if c = '{' then state.braces + 1 else if c = '}' then state.braces - 1
      else state.braces
    .ok { state with buffer := state.buffer ++ [c], braces }
  else if state.done.isSome then
    if Str.isWhitespace c then .ok state else .error none
  else if c = '{' then .ok { state with buffer := state.buffer ++ [c], braces := 1 }
  else if c = '(' then
    .ok { state with frames := ⟨String.mk (trim state.buffer), []⟩ :: state.frames, buffer := [] }
  else if c = ',' || c = ')' then
    match leafOf keyFromStr state.buffer with
    | .error error => .error (some error)
    | .ok leaf =>
        match addChild leaf state.frames, c with
        | [], _ => .error none
        | frames, ',' => .ok { state with frames, buffer := [] }
        | frame :: frames, _ =>
            let call := ScriptExpr.mk frame.name frame.children
            match frames with
            | [] => .ok { state with frames := [], buffer := [], done := some call }
            | _ => .ok { state with frames := addChild (some (.script call)) frames, buffer := [] }
  else .ok { state with buffer := state.buffer ++ [c] }

/-- Modelled from the spec: the pass over the remaining characters. -/
def tokenRun (keyFromStr : List Char → Except ε K) :
    TokenizerState K → List Char → Except (Option ε) (TokenizerState K)
  | state, [] => .ok state
  | state, c :: rest =>
      match tokenStep keyFromStr state c with
      | .error error => .error error
      | .ok state => tokenRun keyFromStr state rest

/-- Modelled from the spec: `ScriptExpr::from_str`; a key that fails to read gives its
error, any other malformed text `InvalidScriptExpr`. -/
def ScriptExpr.fromStr (keyFromStr : List Char → Except ε K) (s : List Char) :
    Except (DescrParseError ε) (ScriptExpr K) :=
  match tokenRun keyFromStr ⟨[], [], 0, none⟩ s with
  | .error (some error) => .error (.key error)
  | .error none => .error (.invalidScriptExpr s)
  | .ok state =>
      match state.done with
      | some call => .ok call
      | none => .error (.invalidScriptExpr s)

/-! ## The tests' key -/

/-- `DumbKey` of the tests of `compile.rs`: it writes `KEY` and reads only `KEY`. -/
structure DumbKey where
deriving Repr, DecidableEq

/-- `Display for DumbKey`. -/
def DumbKey.display (_ : DumbKey) : List Char := "KEY".toList

/-- `FromStr for DumbKey`; its error, `XkeyDecodeError::InvalidSecretKey`, is `()`. -/
def DumbKey.fromStr (text : List Char) : Except Unit DumbKey :=
  if text = "KEY".toList then .ok ⟨⟩ else .error ()

example : ScriptExpr.fromStr DumbKey.fromStr "tr(KEY,multi_a(2,KEY,KEY))".toList =
    .ok (.mk "tr" [.key ⟨⟩, .script (.mk "multi_a" [.lit "2", .key ⟨⟩, .key ⟨⟩])]) := rfl

end BpStd.Descriptors
