import BpStd.Rust.Num
import BpStd.Rust.Str
import BpStd.Derive.Path
import BpStd.Derive.Segment

/-!
Contract: the text forms of `derive/src/path.rs`: `Display` and `FromStr` of
`DerivationPath<I>` and of `DerivationSeg<I>`, over the index type's own `Display` and
`FromStr`, which are parameters.

Owns: `DerivationParseError`, `SegParseError`, the four codec functions, `IndexText`
(an index type's text pair, carrying the law that parsing reads back what display
writes), and the text of `NormalIndex`, modelled from the spec.

`DerivationPath::from_str` strips one leading `/`, splits on every `/` and parses each
piece; `str::split` is `List.splitOn`, which yields one empty piece for the empty string,
so the `InvalidFormat` branch is never taken and the empty string and `/` are accepted
exactly when the index type accepts the empty string.  `DerivationSeg::from_str` trims
every leading `<` and every trailing `>` and reads a set when exactly two characters went,
on whichever sides, so `<<0` and `0>>` are read as `<0>`.  Collecting the parsed indexes
into a `BTreeSet` before `Confined::try_from_iter` does not change the set that call
builds, so the model passes the parsed list to `with`.

Does not own: the text of `HardenedIndex` and `DerivationIndex`, and the conversion of
the index type's error into `IndexParseError`, which is the identity here.
-/

namespace BpStd.Derive

open BpStd.Rust

/-- `DerivationParseError`, over the index type's parse error. -/
inductive DerivationParseError (E : Type) where
  | invalidIndex (s : List Char) (error : E)
  | invalidFormat (s : List Char)
deriving Repr, DecidableEq

/-- `SegParseError`, over the index type's parse error. -/
inductive SegParseError (E : Type) where
  | invalidFormat (error : E)
  | confinement (error : ConfinementError)
deriving Repr, DecidableEq

/-- An index type's `Display` and `FromStr`, with the law that `from_str` reads back what
`Display` writes. -/
structure IndexText (I E : Type) where
  display : I → List Char
  fromStr : List Char → Except E I
  fromStr_display : ∀ index, fromStr (display index) = .ok index

/-! ## Lists of pieces -/

section Pieces

variable {α β E : Type}

theorem intercalate_cons_cons (sep first second : List α) (rest : List (List α)) :
    sep.intercalate (first :: second :: rest) = first ++ sep ++ sep.intercalate (second :: rest) := by
  simp [List.intercalate, List.intersperse_cons_cons, List.append_assoc]

theorem not_mem_intercalate {c : α} {sep : List α} (notSep : c ∉ sep) :
    ∀ {pieces : List (List α)}, (∀ piece ∈ pieces, c ∉ piece) → c ∉ sep.intercalate pieces
  | [], _ => by simp [List.intercalate]
  | [piece], absent => by simpa [List.intercalate] using absent piece (List.mem_singleton_self _)
  | first :: second :: rest, absent => by
      rw [intercalate_cons_cons]
      simp only [List.mem_append, not_or]
      exact ⟨⟨absent first (List.mem_cons_self _ _), notSep⟩,
        not_mem_intercalate notSep fun piece mem => absent piece (List.mem_cons_of_mem _ mem)⟩

/-- No piece of `splitOn c` holds `c`. -/
theorem not_mem_of_mem_splitOn [DecidableEq α] {c : α} :
    ∀ {s piece : List α}, piece ∈ s.splitOn c → c ∉ piece
  | [], piece, mem => by simp_all [List.splitOn_nil]
  | d :: rest, piece, mem => by
      have inductionHypothesis : ∀ {piece}, piece ∈ rest.splitOn c → c ∉ piece :=
        not_mem_of_mem_splitOn
      rw [List.splitOn, List.splitOnP_cons] at mem
      split at mem
      · rcases List.mem_cons.mp mem with rfl | later
        · exact List.not_mem_nil c
        · exact inductionHypothesis later
      · rename_i differ
        obtain ⟨head, tail, pieces⟩ := List.exists_cons_of_ne_nil (List.splitOnP_ne_nil _ rest)
        rw [pieces, List.modifyHead_cons] at mem
        have headAbsent := @inductionHypothesis head (by rw [List.splitOn, pieces]; simp)
        rcases List.mem_cons.mp mem with rfl | later
        · simp only [List.mem_cons, not_or]
          exact ⟨fun same => differ (by simp [same]), headAbsent⟩
        · exact inductionHypothesis (by rw [List.splitOn, pieces]; exact List.mem_cons_of_mem _ later)

theorem not_mem_of_mem_map {f : β → List α} {c : α} (absent : ∀ value, c ∉ f value)
    (values : List β) : ∀ piece ∈ values.map f, c ∉ piece := fun piece mem => by
  obtain ⟨value, -, rfl⟩ := List.mem_map.mp mem
  exact absent value

theorem mapM_length {f : α → Except E β} :
    ∀ {pieces : List α} {values : List β}, pieces.mapM f = .ok values → values.length = pieces.length
  | [], values, parsed => by cases parsed; rfl
  | piece :: pieces, values, parsed => by
      simp only [List.mapM_cons, bind, Except.bind, pure, Except.pure] at parsed
      split at parsed
      · cases parsed
      · split at parsed
        · cases parsed
        · cases parsed
          simp [mapM_length ‹_›]

theorem mapM_map_of_inverse {f : α → Except E β} {g : β → α} (inverse : ∀ b, f (g b) = .ok b) :
    ∀ values : List β, (values.map g).mapM f = .ok values
  | [] => rfl
  | value :: values => by
      rw [List.map_cons, List.mapM_cons, inverse, mapM_map_of_inverse inverse values]
      rfl

end Pieces

/-! ## The text of `NormalIndex` -/

/-- Modelled from the spec: `IndexParseError`. -/
inductive IndexParseError where
  | empty
  | notANumber
  | outOfRange
  | unexpectedHardenedMarker
  | unexpectedNormalIndex
deriving Repr, DecidableEq

namespace NormalIndex

/-- Modelled from the spec: the hardened markers, an apostrophe, `h` and `H`. -/
def hardenedMarker (c : Char) : Bool := c = Char.ofNat 39 || c = 'h' || c = 'H'

/-- Modelled from the spec: `Display`, the decimal child number. -/
def display (index : NormalIndex) : List Char := (Nat.repr index.index.toNat).toList

/-- Modelled from the spec: `FromStr`, the text form `n` of a child number below `2³¹`,
reporting a trailing hardened marker as such. -/
def fromStr (s : List Char) : Except IndexParseError NormalIndex :=
  if s = [] then .error .empty
  else if s.getLast?.any hardenedMarker then .error .unexpectedHardenedMarker
  else
    match parseUnsigned 4294967295 s with
    | .error _ => .error .notANumber
    | .ok index =>
        if below : index < hardenedIndexBoundary then .ok (ofNat index below)
        else .error .outOfRange

theorem display_isDigit (index : NormalIndex) : ∀ c ∈ index.display, c.isDigit = true :=
  (toDigits_isDigit_and_accumulate _).1

theorem not_mem_display {c : Char} (notDigit : c.isDigit = false) (index : NormalIndex) :
    c ∉ index.display :=
  fun mem => absurd (display_isDigit index c mem) (by simp [notDigit])

theorem display_eq_append (index : NormalIndex) :
    ∃ front last, index.display = front ++ [last] :=
  ⟨_, _, toDigits_eq _⟩

theorem display_ne_nil (index : NormalIndex) : index.display ≠ [] := by
  obtain ⟨front, last, split⟩ := index.display_eq_append
  simp [split]

theorem fromStr_display (index : NormalIndex) : fromStr index.display = .ok index := by
  obtain ⟨front, last, split⟩ := index.display_eq_append
  have lastDigit := display_isDigit index last (by rw [split]; simp)
  have lastOf : index.display.getLast? = some last := by simp [split]
  have notMarker : (index.display.getLast?.any hardenedMarker) = false := by
    simp only [lastOf, Option.any_some, hardenedMarker, Bool.or_eq_false_iff,
      decide_eq_false_iff_not]
    refine ⟨⟨?_, ?_⟩, ?_⟩ <;> rintro rfl <;> exact absurd lastDigit (by decide)
  have fits : index.index.toNat ≤ 4294967295 := by
    have below := index.index_lt
    unfold hardenedIndexBoundary at below
    omega
  rw [fromStr, if_neg index.display_ne_nil, notMarker]
  simp only [Bool.false_eq_true, if_false, display, parseUnsigned_repr fits,
    dif_pos index.index_lt, ofNat_index_toNat]

/-- `NormalIndex`'s text pair. -/
def text : IndexText NormalIndex IndexParseError := ⟨display, fromStr, fromStr_display⟩

/-- Modelled from the spec: what the text of a `NormalIndex` never holds. -/
theorem text_separators (index : NormalIndex) :
    '/' ∉ text.display index ∧ '<' ∉ text.display index ∧ '>' ∉ text.display index ∧
      ';' ∉ text.display index :=
  ⟨not_mem_display (by decide) index, not_mem_display (by decide) index,
    not_mem_display (by decide) index, not_mem_display (by decide) index⟩

end NormalIndex

/-! ## `DerivationPath` -/

namespace DerivationPath

variable {I E : Type}

/-- `Display`: every index after a `/`. -/
def display (displayIndex : I → List Char) (path : DerivationPath I) : List Char :=
  path.segments.flatMap fun index => '/' :: displayIndex index

/-- `FromStr`. -/
def fromStr (parseIndex : List Char → Except E I) (s : List Char) :
    Except (DerivationParseError E) (DerivationPath I) :=
  let s := if Str.startsWith s ['/'] then s.drop 1 else s
  match (s.splitOn '/').mapM parseIndex with
  | .error error => .error (.invalidIndex s error)
  | .ok inner => if inner.isEmpty then .error (.invalidFormat s) else .ok ⟨inner⟩

theorem display_eq_intercalate (displayIndex : I → List Char) :
    ∀ {segments : List I}, segments ≠ [] →
      (⟨segments⟩ : DerivationPath I).display displayIndex =
        '/' :: ['/'].intercalate (segments.map displayIndex)
  | [index], _ => by simp [display, List.intercalate]
  | index :: next :: rest, _ => by
      have rest := display_eq_intercalate displayIndex (List.cons_ne_nil next rest)
      simp only [display, List.flatMap_cons] at rest ⊢
      simp [rest, intercalate_cons_cons]

theorem startsWith_slash_iff {s : List Char} :
    Str.startsWith s ['/'] = true ↔ s.head? = some '/' := by
  cases s with
  | nil => simp [Str.startsWith]
  | cons c rest =>
      simp only [Str.startsWith, List.isPrefixOf, List.head?_cons, Option.some.injEq,
        Bool.and_true, beq_iff_eq]
      exact eq_comm

/-- `from_str` exactly: after one optional leading `/`, the text is the pieces joined by
`/`, at least one piece and none holding `/`, and every piece parses. -/
theorem fromStr_eq_ok_iff {parseIndex : List Char → Except E I} {s : List Char}
    {path : DerivationPath I} :
    fromStr parseIndex s = .ok path ↔
      ∃ pieces : List (List Char), pieces ≠ [] ∧ (∀ piece ∈ pieces, '/' ∉ piece) ∧
        (s = ['/'].intercalate pieces ∧ s.head? ≠ some '/' ∨
          s = '/' :: ['/'].intercalate pieces) ∧
        pieces.mapM parseIndex = .ok path.segments := by
  constructor
  · intro parsed
    unfold fromStr at parsed
    generalize stripped : (if Str.startsWith s ['/'] then s.drop 1 else s) = rest at parsed
    dsimp only at parsed
    split at parsed
    · cases parsed
    · rename_i inner parsedPieces
      split at parsed
      · cases parsed
      · cases parsed
        refine ⟨rest.splitOn '/', List.splitOnP_ne_nil _ _, fun _ => not_mem_of_mem_splitOn,
          ?_, parsedPieces⟩
        rw [List.intercalate_splitOn rest '/']
        split at stripped
        · rename_i slash
          obtain ⟨first, tail, rfl⟩ := List.exists_cons_of_ne_nil
            (show s ≠ [] by rintro rfl; simp [Str.startsWith] at slash)
          have head : first = '/' := by simpa using startsWith_slash_iff.mp slash
          subst head
          exact .inr (by simp [← stripped])
        · rename_i noSlash
          exact .inl ⟨stripped, fun head => noSlash (startsWith_slash_iff.mpr head)⟩
  · rintro ⟨pieces, nonempty, noSlash, spelled, parsedPieces⟩
    have stripped : (if Str.startsWith s ['/'] then s.drop 1 else s) = ['/'].intercalate pieces := by
      rcases spelled with ⟨rfl, noHead⟩ | rfl
      · rw [if_neg (mt startsWith_slash_iff.mp noHead)]
      · simp [Str.startsWith, List.isPrefixOf]
    have notEmpty : path.segments.isEmpty = false := by
      have length := mapM_length parsedPieces
      cases segments : path.segments with
      | nil =>
          rw [segments] at length
          exact absurd (List.length_eq_zero.mp length.symm) nonempty
      | cons => rfl
    simp only [fromStr, stripped, List.splitOn_intercalate pieces '/' noSlash nonempty, parsedPieces,
      notEmpty, if_false, Bool.false_eq_true]

end DerivationPath

/-- The text codec of derivation paths, for an index type whose `from_str` reads back its
`Display` and whose `Display` never writes `/`: `from_str` accepts exactly the `/`-joined
texts that parse piece by piece, after one optional leading `/`; it reads back the
`Display` of every non-empty path; and the empty string and `/` give the same result,
accepted exactly when the index type accepts the empty string. -/
theorem derivationPath_text {I E : Type} (text : IndexText I E)
    (noSlash : ∀ index, '/' ∉ text.display index) :
    (∀ (s : List Char) (path : DerivationPath I),
      DerivationPath.fromStr text.fromStr s = .ok path ↔
        ∃ pieces : List (List Char), pieces ≠ [] ∧ (∀ piece ∈ pieces, '/' ∉ piece) ∧
          (s = ['/'].intercalate pieces ∧ s.head? ≠ some '/' ∨
            s = '/' :: ['/'].intercalate pieces) ∧
          pieces.mapM text.fromStr = .ok path.segments) ∧
    (∀ path : DerivationPath I, path.segments ≠ [] →
      DerivationPath.fromStr text.fromStr (path.display text.display) = .ok path) ∧
    DerivationPath.fromStr text.fromStr [] = DerivationPath.fromStr text.fromStr ['/'] ∧
    (DerivationPath.fromStr text.fromStr []).toBool = (text.fromStr []).toBool := by
  refine ⟨fun _ _ => DerivationPath.fromStr_eq_ok_iff, fun path nonempty => ?_, rfl, ?_⟩
  · rw [DerivationPath.display_eq_intercalate _ nonempty]
    exact DerivationPath.fromStr_eq_ok_iff.mpr ⟨_, by simpa using nonempty,
      not_mem_of_mem_map noSlash _, .inr rfl, mapM_map_of_inverse text.fromStr_display _⟩
  · show (match (List.splitOn '/' ([] : List Char)).mapM text.fromStr with
        | Except.error error => Except.error (DerivationParseError.invalidIndex [] error)
        | Except.ok inner => if inner.isEmpty then Except.error (DerivationParseError.invalidFormat [])
            else Except.ok (⟨inner⟩ : DerivationPath I)).toBool = _
    rw [List.splitOn_nil, List.mapM_cons, List.mapM_nil]
    cases text.fromStr [] <;> rfl

/-- For `NormalIndex`, which never writes `/`, the empty string is rejected. -/
theorem derivationPath_text_normalIndex :
    (∀ index, '/' ∉ NormalIndex.text.display index) ∧
      (DerivationPath.fromStr NormalIndex.text.fromStr []).toBool = false :=
  ⟨fun index => (NormalIndex.text_separators index).1,
    (derivationPath_text NormalIndex.text fun index => (NormalIndex.text_separators index).1).2.2.2⟩

namespace DerivationSeg

variable {I E : Type} [LinearOrder I]

/-- `Display`: a segment of one is its index; otherwise `<`, the indexes joined by `;`,
and `>`. -/
def display (displayIndex : I → List Char) (seg : DerivationSeg I) : List Char :=
  if seg.count = 1 then displayIndex (seg.items.head seg.nonempty)
  else '<' :: [';'].intercalate (seg.items.map displayIndex) ++ ['>']

/-- `FromStr`. -/
def fromStr (parseIndex : List Char → Except E I) (s : List Char) :
    Except (SegParseError E) (DerivationSeg I) :=
  let t := Str.trimEndMatches (Str.trimStartMatches s '<') '>'
  if t.length + 2 = s.length then
    match (t.splitOn ';').mapM parseIndex with
    | .error error => .error (.invalidFormat error)
    | .ok indexes => (DerivationSeg.with indexes).mapError .confinement
  else
    match parseIndex s with
    | .error error => .error (.invalidFormat error)
    | .ok index => .ok (new index)

theorem with_items (seg : DerivationSeg I) : DerivationSeg.with seg.items = .ok seg :=
  DerivationSeg.with_eq_ok_iff.mpr (fromIterChecked_items seg)

theorem with_singleton (index : I) : DerivationSeg.with [index] = .ok (new index) :=
  with_items (new index)

/-- The bracketed branch reading one index: `from_str` returns the segment of that index
whenever the trimmed text is the index's text and exactly two brackets went. -/
theorem fromStr_of_trimmed_single (text : IndexText I E) {index : I}
    (noSemicolon : ';' ∉ text.display index) {s : List Char}
    (trimmed : Str.trimEndMatches (Str.trimStartMatches s '<') '>' = text.display index)
    (twoGone : (text.display index).length + 2 = s.length) :
    fromStr text.fromStr s = .ok (new index) := by
  have single : (text.display index).splitOn ';' = [text.display index] := by
    simpa [List.intercalate] using
      List.splitOn_intercalate [text.display index] ';' (by simpa using noSemicolon)
        (List.cons_ne_nil _ _)
  simp only [fromStr, trimmed, twoGone, if_true, single, List.mapM_cons, List.mapM_nil,
    text.fromStr_display, bind, Except.bind, pure, Except.pure, with_singleton, Except.mapError]

end DerivationSeg

section SegmentText

variable {I E : Type} [LinearOrder I] (text : IndexText I E)

/-- The text codec of segments reads back the `Display` of every segment, for an index
type whose `from_str` reads back its `Display` and whose `Display` writes none of `<`,
`>` and `;`. -/
theorem derivationSeg_display_fromStr
    (noSeparators : ∀ index, '<' ∉ text.display index ∧ '>' ∉ text.display index ∧
      ';' ∉ text.display index)
    (seg : DerivationSeg I) :
    DerivationSeg.fromStr text.fromStr (seg.display text.display) = .ok seg := by
  have noOpen := fun index => (noSeparators index).1
  have noClose := fun index => (noSeparators index).2.1
  have noSemicolon := fun index => (noSeparators index).2.2
  unfold DerivationSeg.display
  split
  · rename_i single
    obtain ⟨index, items⟩ : ∃ index, seg.items = [index] := by
      have length := seg.count_toNat
      rw [single] at length
      exact List.length_eq_one.mp length.symm
    have head : seg.items.head seg.nonempty = index :=
      Option.some.inj ((List.head?_eq_head seg.nonempty).symm.trans (by rw [items]; rfl))
    have trimmed : Str.trimEndMatches (Str.trimStartMatches (text.display index) '<') '>' =
        text.display index := by
      rw [Str.trimStartMatches_of_not_mem (noOpen index), Str.trimEndMatches_of_not_mem (noClose index)]
    simp only [head, DerivationSeg.fromStr, trimmed, text.fromStr_display]
    rw [if_neg (by omega)]
    exact congrArg Except.ok
      (DerivationSeg.ext_items (show (DerivationSeg.new index).items = seg.items from items.symm))
  · have displaysNonempty : seg.items.map text.display ≠ [] := by simpa using seg.nonempty
    have inner : '<' ∉ [';'].intercalate (seg.items.map text.display) ∧
        '>' ∉ [';'].intercalate (seg.items.map text.display) :=
      ⟨not_mem_intercalate (by decide) (not_mem_of_mem_map noOpen _),
        not_mem_intercalate (by decide) (not_mem_of_mem_map noClose _)⟩
    have trimmed : Str.trimEndMatches (Str.trimStartMatches
        ('<' :: [';'].intercalate (seg.items.map text.display) ++ ['>']) '<') '>' =
        [';'].intercalate (seg.items.map text.display) := by
      rw [Str.trimStartMatches, List.cons_append, List.dropWhile_cons_of_pos (by simp),
        Str.dropWhile_eq_self_of_not_mem (by simpa using inner.1),
        Str.trimEndMatches_append_of_not_mem inner.2]
    simp only [DerivationSeg.fromStr, trimmed, List.length_cons, List.length_append,
      List.length_singleton, if_true,
      List.splitOn_intercalate _ ';' (not_mem_of_mem_map noSemicolon _) displaysNonempty,
      mapM_map_of_inverse text.fromStr_display, DerivationSeg.with_items, Except.mapError]
    exact if_pos (by simp)

/-- The segment `<0;1>` of normal indexes reads back from its text. -/
theorem derivationSeg_display_fromStr_standard :
    (∀ index, '<' ∉ NormalIndex.text.display index ∧ '>' ∉ NormalIndex.text.display index ∧
      ';' ∉ NormalIndex.text.display index) ∧
    DerivationSeg.fromStr NormalIndex.text.fromStr
        (DerivationSeg.display NormalIndex.text.display
          ⟨[NormalIndex.ofNat 0 (by decide), NormalIndex.ofNat 1 (by decide)], by decide,
            by simp, by simp⟩) =
      .ok ⟨[NormalIndex.ofNat 0 (by decide), NormalIndex.ofNat 1 (by decide)], by decide,
        by simp, by simp⟩ :=
  ⟨fun index => (NormalIndex.text_separators index).2,
    derivationSeg_display_fromStr NormalIndex.text (fun index => (NormalIndex.text_separators index).2) _⟩

/-- The bracket check counts the characters the trims removed, not where they were: for
every index whose text has none of `<`, `>` and `;`, the texts `<<` then the index and
the index then `>>` both read as the segment of that index. -/
theorem derivationSeg_fromStr_unbalanced
    (noSeparators : ∀ index, '<' ∉ text.display index ∧ '>' ∉ text.display index ∧
      ';' ∉ text.display index)
    (index : I) :
    DerivationSeg.fromStr text.fromStr ('<' :: '<' :: text.display index) =
        .ok (DerivationSeg.new index) ∧
      DerivationSeg.fromStr text.fromStr (text.display index ++ ['>', '>']) =
        .ok (DerivationSeg.new index) := by
  obtain ⟨noOpen, noClose, noSemicolon⟩ := noSeparators index
  refine ⟨DerivationSeg.fromStr_of_trimmed_single text noSemicolon ?_ (by simp),
    DerivationSeg.fromStr_of_trimmed_single text noSemicolon ?_ (by simp)⟩
  · rw [Str.trimStartMatches, List.dropWhile_cons_of_pos (by simp),
      List.dropWhile_cons_of_pos (by simp), Str.dropWhile_eq_self_of_not_mem noOpen,
      Str.trimEndMatches_of_not_mem noClose]
  · rw [Str.trimStartMatches_of_not_mem (by simp [noOpen]), Str.trimEndMatches,
      List.reverse_append]
    simp [Str.dropWhile_eq_self_of_not_mem (show '>' ∉ (text.display index).reverse by simpa)]

/-- `<<0`, which `NormalIndex::from_str` rejects, reads as the segment `<0>`. -/
theorem derivationSeg_fromStr_unbalanced_normalIndex :
    (∀ index, '<' ∉ NormalIndex.text.display index ∧ '>' ∉ NormalIndex.text.display index ∧
      ';' ∉ NormalIndex.text.display index) ∧
    NormalIndex.fromStr "<<0".toList = .error .notANumber ∧
    "<<0".toList = '<' :: '<' :: NormalIndex.text.display (NormalIndex.ofNat 0 (by decide)) ∧
    DerivationSeg.fromStr NormalIndex.text.fromStr
        ('<' :: '<' :: NormalIndex.text.display (NormalIndex.ofNat 0 (by decide))) =
      .ok (DerivationSeg.new (NormalIndex.ofNat 0 (by decide))) :=
  ⟨fun index => (NormalIndex.text_separators index).2, rfl, by decide,
    (derivationSeg_fromStr_unbalanced NormalIndex.text
      (fun index => (NormalIndex.text_separators index).2) (NormalIndex.ofNat 0 (by decide))).1⟩

end SegmentText

end BpStd.Derive
