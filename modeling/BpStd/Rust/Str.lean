/-!
Contract: the `str` methods the modelled parsers call, over a string given as its
list of characters.

Owns: `char::is_whitespace`, `trim_start`, `strip_prefix`, `starts_with`,
`ends_with`, `trim_start_matches` and `trim_end_matches` for a character pattern,
and `to_lowercase` on ASCII letters.

Does not own: byte-level slicing, which the callers only perform after an ASCII
prefix check, so counting characters there counts bytes.
-/

namespace BpStd.Rust.Str

/-- `char::is_whitespace`: the Unicode `White_Space` property. -/
def isWhitespace (c : Char) : Bool :=
  ('\t' ≤ c && c ≤ '\r') || c = ' ' || c = '\x85' || c = '\xA0' || c = '\u1680' ||
    ('\u2000' ≤ c && c ≤ '\u200A') || c = '\u2028' || c = '\u2029' || c = '\u202F' ||
    c = '\u205F' || c = '\u3000'

def trimStart (s : List Char) : List Char := s.dropWhile isWhitespace

def startsWith (s pattern : List Char) : Bool := pattern.isPrefixOf s

def stripPrefix (s pattern : List Char) : Option (List Char) :=
  if startsWith s pattern then some (s.drop pattern.length) else none

def endsWith (s : List Char) (c : Char) : Bool := s.getLast? = some c

def trimStartMatches (s : List Char) (c : Char) : List Char := s.dropWhile (· = c)

def trimEndMatches (s : List Char) (c : Char) : List Char :=
  ((s.reverse).dropWhile (· = c)).reverse

/-- `str::to_lowercase`, modelled as ASCII lowercasing (`Char.toLower`); Rust lowercases
every Unicode letter.  The two agree on ASCII, every pattern the callers compare the result
against is ASCII, and no non-ASCII letter lowercases into the letters they use, so every
accept or reject decision is the same; only the text an error carries back can differ on
non-ASCII input. -/
def toLowercase (s : List Char) : List Char := s.map Char.toLower

@[simp] theorem startsWith_append (pattern rest : List Char) :
    startsWith (pattern ++ rest) pattern = true := by
  induction pattern with
  | nil => simp [startsWith, List.isPrefixOf]
  | cons c pattern inductionHypothesis => simp [startsWith, List.isPrefixOf] at *

@[simp] theorem stripPrefix_append (pattern rest : List Char) :
    stripPrefix (pattern ++ rest) pattern = some rest := by
  simp [stripPrefix]

theorem toLower_of_isDigit {c : Char} (digit : c.isDigit = true) : c.toLower = c := by
  simp only [Char.isDigit, Bool.and_eq_true, decide_eq_true_eq] at digit
  have below : c.toNat ≤ 57 := digit.2
  unfold Char.toLower
  rw [if_neg (by omega)]

theorem dropWhile_eq_self_of_not_mem {s : List Char} {c : Char} (absent : c ∉ s) :
    s.dropWhile (· = c) = s := by
  cases s with
  | nil => rfl
  | cons d rest =>
      have differ : d ≠ c := fun same => absent (same ▸ List.mem_cons_self d rest)
      simp [List.dropWhile_cons, differ]

theorem trimStartMatches_of_not_mem {s : List Char} {c : Char} (absent : c ∉ s) :
    trimStartMatches s c = s :=
  dropWhile_eq_self_of_not_mem absent

theorem trimEndMatches_of_not_mem {s : List Char} {c : Char} (absent : c ∉ s) :
    trimEndMatches s c = s := by
  rw [trimEndMatches, dropWhile_eq_self_of_not_mem (by simpa using absent), List.reverse_reverse]

theorem trimEndMatches_append_of_not_mem {s : List Char} {c : Char} (absent : c ∉ s) :
    trimEndMatches (s ++ [c]) c = s := by
  rw [trimEndMatches, List.reverse_append, List.reverse_cons, List.reverse_nil, List.nil_append,
    List.singleton_append, List.dropWhile_cons_of_pos (by simp),
    dropWhile_eq_self_of_not_mem (by simpa using absent), List.reverse_reverse]

theorem trimEndMatches_append_singleton {front : List Char} {last c : Char} (differ : last ≠ c) :
    trimEndMatches (front ++ [last] ++ [c]) c = front ++ [last] := by
  simp [trimEndMatches, differ]

end BpStd.Rust.Str
