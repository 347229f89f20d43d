import Mathlib.Data.List.TakeWhile
import C3Lens.Document.Id
import C3Lens.Files.Url.Percent
import C3Lens.Proofs.Files.Path
import C3Lens.Proofs.Text.Utf8

/-!
# The URL of a file

What is written with percent codes is read back (`percentDecode_percentEncode`), as long as the mark
of the codes is among the characters that are replaced. A segment of a file's path is written without
slashes and with no character that the reader of a path would replace again
(`mem_percentEncodeChars_segment`).

So the id of a document in a file leads back to the file (`DocId.path?_ofPath`): the URL that is written
for an absolute path without double dots is read as itself, segment by segment (`parse?_fileText`),
and its segments are read back as the components of the path. A double dot would be taken as a step
up, as in `..` or behind any of its percent codes, but no component that is none is written as one
(`not_isDoubleDot_encode`).
-/

namespace C3Lens

namespace Url

/-! ## One percent code -/

theorem hexValue?_upperHexDigit {n : Nat} (h : n < 16) : Text.hexValue? (Text.upperHexDigit n) = some n := by
  have all : ∀ n : Fin 16, Text.hexValue? (Text.upperHexDigit n) = some n.val := by decide
  exact all ⟨n, h⟩

theorem percentDecodeBytes_percentCode (b : UInt8) (cs : List Char) :
    percentDecodeBytes (percentCode b ++ cs) = b :: percentDecodeBytes cs := by
  have bound := b.toNat_lt
  have code : b.toNat / 16 * 16 + b.toNat % 16 = b.toNat := by omega
  show percentDecodeBytes ('%' :: _ :: _ :: cs) = _
  rw [percentDecodeBytes, if_pos rfl, hexValue?_upperHexDigit (by omega), hexValue?_upperHexDigit (by omega)]
  simp only [Option.bind_some, Option.map_some, code]
  exact congrArg (· :: _) (UInt8.ofNat_toNat)

/-- A character that is not the mark of a code stands for itself. -/
theorem percentDecodeBytes_cons {c : Char} (h : c ≠ '%') (cs : List Char) :
    percentDecodeBytes (c :: cs) = String.utf8EncodeChar c ++ percentDecodeBytes cs := by
  match cs with
  | [] => rw [percentDecodeBytes, percentDecodeBytes, Utf8.encode_singleton, List.append_nil]
  | [d] => rw [percentDecodeBytes, percentDecodeBytes, Utf8.encode_singleton]
  | d :: e :: cs => rw [percentDecodeBytes, if_neg h, Utf8.encode_singleton]

theorem percentDecodeBytes_percentCodes (bs : List UInt8) (cs : List Char) :
    percentDecodeBytes (bs.flatMap percentCode ++ cs) = bs ++ percentDecodeBytes cs := by
  induction bs with
  | nil => rfl
  | cons b bs ih =>
    rw [List.flatMap_cons, List.append_assoc, percentDecodeBytes_percentCode, ih, List.cons_append]

/-! ## Texts with percent codes -/

section Texts

variable {inSet : Char → Bool}

theorem percentDecodeBytes_percentEncodeChars (mark : inSet '%' = true) (cs : List Char) :
    percentDecodeBytes (percentEncodeChars inSet cs) = cs.flatMap String.utf8EncodeChar := by
  induction cs with
  | nil => rfl
  | cons c cs ih =>
    rw [percentEncodeChars, List.flatMap_cons, List.flatMap_cons]
    change percentDecodeBytes (_ ++ percentEncodeChars inSet cs) = _
    split
    next => rw [percentDecodeBytes_percentCodes, ih, Utf8.encode_singleton]
    next plain =>
      have unmarked : c ≠ '%' := by
        rintro rfl
        exact plain mark
      rw [List.singleton_append, percentDecodeBytes_cons unmarked, ih]

/-- What is written with percent codes is read back. -/
theorem percentDecode_percentEncode (mark : inSet '%' = true) (s : String) :
    percentDecode (percentEncode inSet s) = s := by
  rw [percentDecode, percentEncode, String.toList_ofList, percentDecodeBytes_percentEncodeChars mark,
    ← Utf8.encode_eq, Utf8.decodeLossy_encode]

theorem percentEncodeChars_of_plain {cs : List Char} (h : ∀ c ∈ cs, inSet c = false) :
    percentEncodeChars inSet cs = cs := by
  induction cs with
  | nil => rfl
  | cons c cs ih =>
    rw [List.forall_mem_cons] at h
    rw [percentEncodeChars, List.flatMap_cons, h.1, if_neg Bool.false_ne_true, List.singleton_append]
    exact congrArg (c :: ·) (ih h.2)

/-- The characters of a written text are marks, digits and characters that are not replaced. -/
theorem mem_percentEncodeChars {P : Char → Prop} (mark : P '%')
    (digit : ∀ n < 16, P (Text.upperHexDigit n)) (plain : ∀ c, inSet c = false → P c) {cs : List Char} :
    ∀ c ∈ percentEncodeChars inSet cs, P c := by
  intro c hc
  obtain ⟨d, -, hc⟩ := List.mem_flatMap.1 hc
  split at hc
  next =>
    obtain ⟨b, -, hc⟩ := List.mem_flatMap.1 hc
    have bound := b.toNat_lt
    simp only [percentCode, List.mem_cons, List.not_mem_nil, or_false] at hc
    rcases hc with rfl | rfl | rfl
    · exact mark
    · exact digit _ (by omega)
    · exact digit _ (by omega)
  next out =>
    rw [List.mem_singleton.1 hc]
    exact plain d (Bool.eq_false_iff.2 out)

end Texts

/-- A segment is written with characters that stand for themselves in a path. -/
theorem mem_percentEncodeChars_segment {cs : List Char} :
    ∀ c ∈ percentEncodeChars inSegmentSet cs, inPathSet c = false ∧ c ≠ '/' ∧ c ≠ '\\' := by
  refine mem_percentEncodeChars ⟨rfl, by decide, by decide⟩ ?_ ?_
  · have all : ∀ n : Fin 16, inPathSet (Text.upperHexDigit n) = false ∧ Text.upperHexDigit n ≠ '/' ∧
        Text.upperHexDigit n ≠ '\\' := by decide
    exact fun n h => all ⟨n, h⟩
  · intro c plain
    simp only [inSegmentSet, Bool.or_eq_false_iff, beq_eq_false_iff_ne] at plain
    exact ⟨plain.1.1.1, plain.1.1.2, plain.2⟩


/-! ## Segments that are no dots -/

/-- A character whose lower case is `d` is `d` itself or an upper-case letter. -/
theorem eq_of_toLower {c d : Char} (h : c.toLower = d) :
    c = d ∨ c.toNat + 32 = d.toNat ∧ 65 ≤ c.toNat ∧ c.toNat ≤ 90 := by
  delta Char.toLower at h
  split at h
  next upper =>
    have first : 65 ≤ c.toNat := upper.1
    have last : c.toNat ≤ 90 := upper.2
    refine .inr ⟨?_, first, last⟩
    rw [← h]
    show c.toNat + 32 = (c.val + 32).toNat
    rw [UInt32.toNat_add, Nat.mod_eq_of_lt]
    · rfl
    · have small : c.val.toNat ≤ 90 := last
      have step : (32 : UInt32).toNat = 32 := rfl
      omega
  next => exact .inl h

/-- A dot, written as it is or with its percent code, is read as a dot. -/
theorem percentDecodeBytes_dot {cs : List Char}
    (h : cs.map Char.toLower = ['.'] ∨ cs.map Char.toLower = ['%', '2', 'e']) (rest : List Char) :
    percentDecodeBytes (cs ++ rest) = 0x2E :: percentDecodeBytes rest := by
  rcases h with dot | code
  · obtain ⟨c, rfl, lower⟩ := List.map_eq_singleton_iff.1 dot
    rcases eq_of_toLower lower with rfl | upper
    · rw [List.singleton_append, percentDecodeBytes_cons (by decide)]
      rfl
    · have := show '.'.toNat = 46 from rfl
      omega
  · obtain ⟨a, rest₁, rfl, mark, tail⟩ := List.map_eq_cons_iff.1 code
    obtain ⟨b, rest₂, rfl, two, tail⟩ := List.map_eq_cons_iff.1 tail
    obtain ⟨c, rfl, letter⟩ := List.map_eq_singleton_iff.1 tail
    have isMark : a = '%' := (eq_of_toLower mark).resolve_right fun upper => by
      have := show '%'.toNat = 37 from rfl
      omega
    have isTwo : b = '2' := (eq_of_toLower two).resolve_right fun upper => by
      have := show '2'.toNat = 50 from rfl
      omega
    have value : Text.hexValue? c = some 14 := by
      rcases eq_of_toLower letter with rfl | upper
      · rfl
      · have isUpper : c = 'E' := Char.toNat_inj.1 (Nat.add_right_cancel upper.1)
        rw [isUpper]
        rfl
    subst isMark isTwo
    show percentDecodeBytes ('%' :: '2' :: c :: rest) = _
    rw [percentDecodeBytes, if_pos rfl, show Text.hexValue? '2' = some 2 from rfl, value]
    rfl

theorem toLower_ofList (cs : List Char) : (String.ofList cs).toLower = String.ofList (cs.map Char.toLower) := by
  have lower : (String.ofList cs).toLower = (String.ofList cs).map Char.toLower := rfl
  rw [lower, ← String.toList_inj, String.toList_map, String.toList_ofList, String.toList_ofList]

theorem isSingleDot_iff {cs : List Char} :
    isSingleDot cs = true ↔ cs.map Char.toLower = ['.'] ∨ cs.map Char.toLower = ['%', '2', 'e'] := by
  simp [isSingleDot, toLower_ofList, ← String.toList_inj]

theorem isDoubleDot_iff {cs : List Char} :
    isDoubleDot cs = true ↔ cs.map Char.toLower = ['.'] ++ ['.'] ∨
      cs.map Char.toLower = ['.'] ++ ['%', '2', 'e'] ∨ cs.map Char.toLower = ['%', '2', 'e'] ++ ['.'] ∨
      cs.map Char.toLower = ['%', '2', 'e'] ++ ['%', '2', 'e'] := by
  simp [isDoubleDot, toLower_ofList, ← String.toList_inj]

theorem percentDecode_of_isSingleDot {cs : List Char} (h : isSingleDot cs = true) :
    percentDecode (String.ofList cs) = "." := by
  have bytes := percentDecodeBytes_dot (isSingleDot_iff.1 h) []
  rw [List.append_nil] at bytes
  rw [percentDecode, String.toList_ofList, bytes]
  decide

theorem percentDecode_of_isDoubleDot {cs : List Char} (h : isDoubleDot cs = true) :
    percentDecode (String.ofList cs) = ".." := by
  have dots : ∃ a b, cs = a ++ b ∧ (a.map Char.toLower = ['.'] ∨ a.map Char.toLower = ['%', '2', 'e']) ∧
      (b.map Char.toLower = ['.'] ∨ b.map Char.toLower = ['%', '2', 'e']) := by
    rcases isDoubleDot_iff.1 h with lower | lower | lower | lower <;>
      obtain ⟨a, b, rfl, ha, hb⟩ := List.map_eq_append_iff.1 lower
    · exact ⟨a, b, rfl, .inl ha, .inl hb⟩
    · exact ⟨a, b, rfl, .inl ha, .inr hb⟩
    · exact ⟨a, b, rfl, .inr ha, .inl hb⟩
    · exact ⟨a, b, rfl, .inr ha, .inr hb⟩
  obtain ⟨a, b, rfl, ha, hb⟩ := dots
  have bytes := percentDecodeBytes_dot hb []
  rw [List.append_nil] at bytes
  rw [percentDecode, String.toList_ofList, percentDecodeBytes_dot ha, bytes]
  decide

/-- What stands between two slashes of a URL as it is read: characters that are not replaced, and no
dots. -/
structure IsSegment (cs : List Char) : Prop where
  plain : ∀ c ∈ cs, inPathSet c = false ∧ c ≠ '/' ∧ c ≠ '\\'
  nonempty : cs ≠ []
  single : isSingleDot cs = false
  double : isDoubleDot cs = false

/-- A component of a path, other than a double dot, is written as a segment. -/
theorem isSegment_encode {name : String} (h : Path.IsName name) (up : name ≠ "..") :
    IsSegment (percentEncodeChars inSegmentSet name.toList) := by
  have back : percentDecode (String.ofList (percentEncodeChars inSegmentSet name.toList)) = name :=
    percentDecode_percentEncode rfl name
  refine ⟨mem_percentEncodeChars_segment, fun none => ?_, ?_, ?_⟩
  · rw [none] at back
    exact h.1 back.symm
  · rw [Bool.eq_false_iff]
    exact fun dot => h.2.1 (back.symm.trans (percentDecode_of_isSingleDot dot))
  · rw [Bool.eq_false_iff]
    exact fun dots => up (back.symm.trans (percentDecode_of_isDoubleDot dots))

/-! ## Reading a route -/

/-- Characters between which nothing was left out. -/
def plainGlyphs (cs : List Char) : List Glyph :=
  cs.map (⟨·, false⟩)

theorem chars_plainGlyphs (cs : List Char) : chars (plainGlyphs cs) = cs := by
  simp [chars, plainGlyphs, Function.comp_def]

theorem dropWhile_of_forall {α : Type} {p : α → Bool} {as : List α} (h : ∀ a ∈ as, p a = false) :
    as.dropWhile p = as := by
  cases as with
  | nil => rfl
  | cons a as => rw [List.dropWhile_cons, h a List.mem_cons_self, if_neg Bool.false_ne_true]

/-- Characters other than blanks are read as they are. -/
theorem glyphs_eq {s : String} (h : ∀ c ∈ s.toList, 0x20 < c.toNat) : glyphs s = plainGlyphs s.toList := by
  have solid : ∀ c ∈ s.toList, decide (c.toNat ≤ 0x20) = false := fun c hc =>
    decide_eq_false (Nat.not_le.2 (h c hc))
  have step : ∀ (cs : List Char) (seen : List Glyph), (∀ c ∈ cs, 0x20 < c.toNat) →
      cs.foldl (fun (seen : List Glyph × Bool) c =>
        if c == '\t' || c == '\n' || c == '\r' then (seen.1, true)
        else (⟨c, seen.2⟩ :: seen.1, false)) (seen, false) = ((plainGlyphs cs).reverse ++ seen, false) := by
    intro cs
    induction cs with
    | nil => exact fun seen _ => rfl
    | cons c cs ih =>
      intro seen solid
      rw [List.forall_mem_cons] at solid
      have noBreak : (c == '\t' || c == '\n' || c == '\r') = false := by
        simp only [Bool.or_eq_false_iff, beq_eq_false_iff_ne]
        refine ⟨⟨?_, ?_⟩, ?_⟩ <;>
        · rintro rfl
          exact absurd solid.1 (by decide)
      rw [List.foldl_cons, noBreak, if_neg Bool.false_ne_true, ih _ solid.2]
      simp [plainGlyphs]
  rw [glyphs]
  dsimp only
  rw [dropWhile_of_forall solid, dropWhile_of_forall fun c hc => solid c (List.mem_reverse.1 hc),
    List.reverse_reverse, step _ _ h, List.append_nil, List.reverse_reverse]

theorem Route.read_last {kind : SchemeKind} {gs : List Glyph} (h : ∀ g ∈ gs, kind.isSlash g.char = false)
    (r : Route) : r.read kind gs = r.next (kind == .file) gs false := by
  have none : gs.dropWhile (fun g => !kind.isSlash g.char) = [] :=
    List.dropWhile_eq_nil_iff.2 fun g hg => by rw [h g hg]; rfl
  rw [Route.read]
  split
  next => rfl
  next some => rw [none] at some; cases some

theorem Route.read_append {kind : SchemeKind} {gs : List Glyph} (h : ∀ g ∈ gs, kind.isSlash g.char = false)
    {slash : Glyph} (hs : kind.isSlash slash.char = true) (rest : List Glyph) (r : Route) :
    r.read kind (gs ++ slash :: rest) = (r.next (kind == .file) gs true).read kind rest := by
  have inside : ∀ g ∈ gs, (!kind.isSlash g.char) = true := fun g hg => by rw [h g hg]; rfl
  have behind : (gs ++ slash :: rest).dropWhile (fun g => !kind.isSlash g.char) = slash :: rest := by
    rw [List.dropWhile_append_of_pos inside, List.dropWhile_cons, hs]
    rfl
  have before : (gs ++ slash :: rest).takeWhile (fun g => !kind.isSlash g.char) = gs := by
    rw [List.takeWhile_append_of_pos inside, List.takeWhile_cons, hs]
    exact List.append_nil gs
  rw [Route.read]
  split
  next none => rw [behind] at none; cases none
  next some =>
    rw [behind] at some
    cases some
    rw [before]

/-! ## The path of a URL -/

/-- A segment is appended to a path that does not end its first slash. -/
theorem Route.next_segment {cs : List Char} (h : IsSegment cs) {r : Route} (long : 2 ≤ r.path.length)
    (ended : Bool) : r.next true (plainGlyphs cs) ended =
      { r with path := r.path ++ cs ++ if ended then ['/'] else [] } := by
  have inside : (r.path == ['/']) = false := by
    rw [beq_eq_false_iff_ne]
    intro eq
    rw [eq] at long
    exact absurd long (by decide)
  have same : percentEncodeChars inPathSet cs = cs :=
    percentEncodeChars_of_plain fun c hc => (h.plain c hc).1
  rw [Route.next, chars_plainGlyphs, same, inside]
  simp [h.single, h.double]

/-- Segments with slashes between them are read one after the other. -/
theorem Route.path_read_segments {segments : List (List Char)} (h : ∀ cs ∈ segments, IsSegment cs)
    (some : segments ≠ []) {r : Route} (long : 2 ≤ r.path.length) :
    r.read .file (plainGlyphs (['/'].intercalate segments)) =
      { r with path := r.path ++ ['/'].intercalate segments } := by
  have noSlash : ∀ cs, IsSegment cs → ∀ g ∈ plainGlyphs cs, SchemeKind.file.isSlash g.char = false := by
    intro cs hcs g hg
    obtain ⟨c, hc, rfl⟩ := List.mem_map.1 hg
    have plain := hcs.plain c hc
    simp [SchemeKind.isSlash, plain.2.1, plain.2.2]
  induction segments generalizing r with
  | nil => exact absurd rfl some
  | cons cs segments ih =>
    rw [List.forall_mem_cons] at h
    cases segments with
    | nil =>
      rw [List.intercalate_singleton, Route.read_last (noSlash cs h.1)]
      show r.next true _ false = _
      rw [Route.next_segment h.1 long]
      simp
    | cons other segments =>
      have joined : ['/'].intercalate (cs :: other :: segments) =
          cs ++ '/' :: ['/'].intercalate (other :: segments) := by
        simp [List.intercalate_cons_cons]
      have glyphs : plainGlyphs (cs ++ '/' :: ['/'].intercalate (other :: segments)) =
          plainGlyphs cs ++ ⟨'/', false⟩ :: plainGlyphs (['/'].intercalate (other :: segments)) := by
        simp [plainGlyphs]
      rw [joined, glyphs, Route.read_append (noSlash cs h.1) rfl]
      show (r.next true _ true).read .file _ = _
      rw [Route.next_segment h.1 long, ih h.2 (List.cons_ne_nil _ _) (by simp; omega)]
      simp

/-! ## The whole URL -/

/-- The URL of a file whose path is made of segments. -/
def ofSegments (segments : List (List Char)) : Url :=
  ⟨"file", some (.ofHost .empty), Path.ofComponents (segments.map String.ofList), none, none⟩

theorem toList_path_ofSegments (segments : List (List Char)) :
    (ofSegments segments).path.toList = '/' :: ['/'].intercalate segments := by
  have same : segments.map (String.toList ∘ String.ofList) = segments :=
    List.map_id'' (fun _ => String.toList_ofList) segments
  rw [ofSegments, Path.ofComponents, String.toList_append, String.toList_intercalate, List.map_map, same]
  rfl

theorem toList_text_ofSegments (segments : List (List Char)) :
    (ofSegments segments).text.toList = "file:///".toList ++ ['/'].intercalate segments := by
  have host : Authority.text (.ofHost .empty) = "" := by decide
  have before : (ofSegments segments).beforePath = "//" := by
    show "//" ++ Authority.text (.ofHost .empty) = "//"
    rw [host]
    rfl
  rw [text, before]
  simp only [String.toList_append, toList_path_ofSegments]
  show "file".toList ++ ":".toList ++ "//".toList ++ '/' :: ['/'].intercalate segments ++
    ([] : List Char) ++ ([] : List Char) = _
  simp

theorem mem_intercalate {c : Char} {segments : List (List Char)} (h : c ∈ ['/'].intercalate segments) :
    c = '/' ∨ ∃ cs ∈ segments, c ∈ cs := by
  induction segments with
  | nil => simp at h
  | cons cs segments ih =>
    cases segments with
    | nil =>
      rw [List.intercalate_singleton] at h
      exact .inr ⟨cs, List.mem_cons_self, h⟩
    | cons other segments =>
      rw [List.intercalate_cons_cons, List.append_assoc, List.mem_append, List.mem_append,
        List.mem_singleton] at h
      rcases h with h | h | h
      · exact .inr ⟨cs, List.mem_cons_self, h⟩
      · exact .inl h
      · exact (ih h).imp_right fun ⟨cs, hcs, hc⟩ => ⟨cs, List.mem_cons_of_mem _ hcs, hc⟩

/-- The first segment does not begin with a slash. -/
theorem dropWhile_slash_intercalate {segments : List (List Char)} (h : ∀ cs ∈ segments, IsSegment cs) :
    (['/'].intercalate segments).dropWhile (· == '/') = ['/'].intercalate segments := by
  cases segments with
  | nil => rfl
  | cons cs segments =>
    obtain ⟨plain, some, -, -⟩ := h cs List.mem_cons_self
    obtain ⟨c, cs, rfl⟩ := List.exists_cons_of_ne_nil some
    have noSlash : (c == '/') = false := beq_eq_false_iff_ne.2 (plain c List.mem_cons_self).2.1
    cases segments with
    | nil =>
      rw [List.intercalate_singleton, List.dropWhile_cons, noSlash]
      rfl
    | cons other segments =>
      rw [List.intercalate_cons_cons, List.cons_append, List.cons_append, List.dropWhile_cons, noSlash]
      rfl

/-- A route in front of which no slash has been read begins with two slashes, the second of which
ends an empty segment. -/
theorem filePath_segments {segments : List (List Char)} (h : ∀ cs ∈ segments, IsSegment cs) :
    filePath (plainGlyphs ('/' :: ['/'].intercalate segments)) =
      (some (.ofHost .empty), '/' :: ['/'].intercalate segments) := by
  have double : isDoubleDot [] = false := Bool.eq_false_iff.2 (mt isDoubleDot_iff.1 (by decide))
  have single : isSingleDot [] = false := Bool.eq_false_iff.2 (mt isSingleDot_iff.1 (by decide))
  have empty : Route.next true ⟨['/'], false⟩ [] true = ⟨['/', '/'], false⟩ := by
    simp [Route.next, chars, percentEncodeChars, runsOn, isDrive, double, single]
  have last : Route.next true ⟨['/', '/'], false⟩ [] false = ⟨['/', '/'], false⟩ := by
    simp [Route.next, chars, percentEncodeChars, double, single]
  have none : ∀ g ∈ ([] : List Glyph), SchemeKind.isSlash .file g.char = false := fun _ hg => absurd hg List.not_mem_nil
  have first : Route.read .file ⟨['/'], false⟩ (plainGlyphs ('/' :: ['/'].intercalate segments)) =
      (Route.next true ⟨['/'], false⟩ [] true).read .file (plainGlyphs (['/'].intercalate segments)) := by
    have slash : SchemeKind.isSlash .file (⟨'/', false⟩ : Glyph).char = true := rfl
    exact Route.read_append none slash _ _
  have all : Route.read .file ⟨['/', '/'], false⟩ (plainGlyphs (['/'].intercalate segments)) =
      ⟨['/', '/'] ++ ['/'].intercalate segments, false⟩ := by
    by_cases some : segments = []
    · rw [some]
      exact (Route.read_last none _).trans last
    · exact Route.path_read_segments h some (Nat.le_refl 2)
  have root : rooted (['/', '/'] ++ ['/'].intercalate segments) = '/' :: ['/'].intercalate segments :=
    congrArg ('/' :: ·) (dropWhile_slash_intercalate h)
  rw [filePath, first, empty, all, ofRoute]
  dsimp only
  rw [root, if_neg Bool.false_ne_true]

/-- What is written in a path is neither blank nor the beginning of a query or a fragment. -/
theorem solid_of_inPathSet {c : Char} (h : inPathSet c = false) : 0x20 < c.toNat ∧ c ≠ '?' ∧ c ≠ '#' := by
  simp only [inPathSet, inFragmentSet, isControl, Bool.or_eq_false_iff, decide_eq_false_iff_not,
    beq_eq_false_iff_ne] at h
  have blank : c.toNat ≠ ' '.toNat := fun same => h.1.1.1.1.1.1.1.1.2 (Char.toNat_inj.1 same)
  have space : ' '.toNat = 32 := rfl
  exact ⟨by omega, h.1.1.2, h.1.1.1.2⟩

/-- The URL of a file is read as itself. -/
theorem parse?_text_ofSegments {segments : List (List Char)} (h : ∀ cs ∈ segments, IsSegment cs) :
    parse? (ofSegments segments).text = some (ofSegments segments) := by
  have written := toList_text_ofSegments segments
  have solid : ∀ c ∈ ['/'].intercalate segments, 0x20 < c.toNat ∧ c ≠ '?' ∧ c ≠ '#' := by
    intro c hc
    rcases mem_intercalate hc with rfl | ⟨cs, hcs, hc⟩
    · decide
    · exact solid_of_inPathSet ((h cs hcs).plain c hc).1
  have read : glyphs (ofSegments segments).text = plainGlyphs ("file:///".toList ++ ['/'].intercalate segments) := by
    have visible : ∀ c ∈ "file:///".toList, 0x20 < c.toNat := by
      have all : ("file:///".toList.all fun c => decide (0x20 < c.toNat)) = true := by decide
      exact fun c hc => of_decide_eq_true (List.all_eq_true.1 all c hc)
    rw [glyphs_eq, written]
    rw [written]
    exact fun c hc => (List.mem_append.1 hc).elim (visible c) fun hc => (solid c hc).1
  have scheme : splitScheme? (plainGlyphs ("file:///".toList ++ ['/'].intercalate segments)) =
      some ("file", plainGlyphs ('/' :: '/' :: '/' :: ['/'].intercalate segments)) := by
    have lower : (String.ofList ['f', 'i', 'l', 'e']).toLower = "file" := toLower_ofList _
    rw [← lower]
    rfl
  have tail : splitTail (plainGlyphs ('/' :: '/' :: '/' :: ['/'].intercalate segments)) =
      (plainGlyphs ('/' :: '/' :: '/' :: ['/'].intercalate segments), []) := by
    have inside : ∀ g ∈ plainGlyphs ('/' :: '/' :: '/' :: ['/'].intercalate segments),
        (g.char != '?' && g.char != '#') = true := by
      intro g hg
      obtain ⟨c, hc, rfl⟩ := List.mem_map.1 hg
      have plain : c ≠ '?' ∧ c ≠ '#' := by
        simp only [List.mem_cons] at hc
        rcases hc with rfl | rfl | rfl | hc
        · decide
        · decide
        · decide
        · exact (solid c hc).2
      simp [plain]
    rw [splitTail, List.takeWhile_eq_self_iff.2 inside, List.dropWhile_eq_nil_iff.2 inside]
    rfl
  have place : place? "file" [] (plainGlyphs ('/' :: '/' :: '/' :: ['/'].intercalate segments)) =
      some (some (.ofHost .empty), '/' :: ['/'].intercalate segments) :=
    congrArg some (filePath_segments h)
  rw [parse?, read, scheme]
  simp only [Option.bind_eq_bind, Option.bind_some, tail, place]
  refine congrArg some ?_
  have path : String.ofList ('/' :: ['/'].intercalate segments) = (ofSegments segments).path := by
    rw [← toList_path_ofSegments, String.ofList_toList]
  rw [path]
  rfl

/-! ## The path of the file -/

/-- A slash behind a path does not count. -/
theorem closeDrive_cases (path : String) : closeDrive path = path ∨ closeDrive path = path ++ "/" := by
  rw [closeDrive]
  split
  · split
    · exact .inr rfl
    · exact .inl rfl
  · exact .inl rfl

theorem closeDrive_same {path : String} (h : Path.isAbsolute path = true) :
    Path.isAbsolute (closeDrive path) = true ∧ Path.components (closeDrive path) = Path.components path := by
  rcases closeDrive_cases path with same | closed
  · rw [same]
    exact ⟨h, rfl⟩
  · rw [closed]
    exact Path.components_append_slash h

theorem IsSegment.isName {cs : List Char} (h : IsSegment cs) : Path.IsName (String.ofList cs) := by
  refine ⟨fun none => h.nonempty ?_, fun dot => ?_, fun slash => ?_⟩
  · rw [← String.toList_ofList (l := cs), none]
    rfl
  · have single : isSingleDot ['.'] = true := isSingleDot_iff.2 (.inl rfl)
    rw [show ['.'] = cs by rw [← String.toList_ofList (l := cs), dot]; rfl, h.single] at single
    cases single
  · rw [String.toList_ofList] at slash
    exact (h.plain '/' slash).2.1 rfl

/-- The segments of the URL of a file. -/
def encodeNames (names : List String) : List (List Char) :=
  names.map fun name => percentEncodeChars inSegmentSet name.toList

theorem isSegment_of_mem_encodeNames {names : List String} (h : ∀ name ∈ names, Path.IsName name)
    (up : ".." ∉ names) : ∀ cs ∈ encodeNames names, IsSegment cs := by
  intro cs hcs
  obtain ⟨name, hn, rfl⟩ := List.mem_map.1 hcs
  exact isSegment_encode (h name hn) fun same => up (same ▸ hn)

/-- The path of a file is got back from its URL, with a slash behind it if it is a drive. -/
theorem filePath?_encodeNames {names : List String} (h : ∀ name ∈ names, Path.IsName name)
    (up : ".." ∉ names) :
    filePath? (ofSegments (encodeNames names)) = some (closeDrive (Path.ofComponents names)) := by
  have absolute : (ofSegments (encodeNames names)).path.startsWith "/" = true :=
    Path.isAbsolute_ofComponents _
  have isLocal : (ofSegments (encodeNames names)).isLocal = true := by
    rw [Url.isLocal, ofSegments]
    rfl
  have named : ∀ name ∈ (encodeNames names).map String.ofList, Path.IsName name := by
    intro name hn
    obtain ⟨cs, hcs, rfl⟩ := List.mem_map.1 hn
    exact (isSegment_of_mem_encodeNames h up cs hcs).isName
  have split : (ofSegments (encodeNames names)).path.splitOn "/" =
      "" :: if (encodeNames names).map String.ofList = [] then [""]
        else (encodeNames names).map String.ofList :=
    Path.parts_ofComponents named
  have decoded : ((encodeNames names).map String.ofList).map percentDecode = names := by
    rw [encodeNames, List.map_map, List.map_map]
    exact List.map_id'' (fun name => percentDecode_percentEncode rfl name) names
  rw [filePath?, absolute, isLocal, Bool.and_self, if_pos rfl, split]
  refine congrArg (fun path => some (closeDrive path)) ?_
  by_cases none : names = []
  · subst none
    rfl
  · have some : (encodeNames names).map String.ofList ≠ [] := by simpa [encodeNames] using none
    rw [if_neg some, List.map_cons, decoded, Path.ofComponents_eq_intercalate none]
    rfl

/-- The path of a file that a URL names begins at the root. -/
theorem isAbsolute_of_filePath? {u : Url} {path : String} (h : u.filePath? = some path) :
    Path.isAbsolute path = true := by
  rw [filePath?] at h
  split at h
  next named =>
    rw [Bool.and_eq_true] at named
    obtain ⟨rest, some, split⟩ := Path.parts_of_absolute named.1
    have segments : rest.map percentDecode ≠ [] := by simpa using some
    have joined : "/".intercalate ((u.path.splitOn "/").map percentDecode) =
        Path.ofComponents (rest.map percentDecode) := by
      rw [Path.ofComponents_eq_intercalate segments, show u.path.splitOn "/" = "" :: rest from split]
      rfl
    rw [joined] at h
    cases h
    exact (closeDrive_same (Path.isAbsolute_ofComponents _)).1
  next => cases h

end Url

namespace DocId

open Url

theorem isAbsolute_of_path? {doc : DocId} {path : String} (h : doc.path? = some path) :
    Path.isAbsolute path = true := by
  obtain ⟨u, -, found⟩ := Option.bind_eq_some_iff.1 h
  exact isAbsolute_of_filePath? found

theorem ofPath_of_absolute {path : String} (h : Path.isAbsolute path = true) :
    ofPath path = ⟨(ofSegments (encodeNames (Path.components path))).text⟩ := by
  have names : (Path.components path).map (percentEncode inSegmentSet) =
      (encodeNames (Path.components path)).map String.ofList := by
    rw [encodeNames, List.map_map]
    rfl
  rw [ofPath, ofPath?, if_pos h, names]
  rfl

/-- Paths that are the same have the same id. -/
theorem ofPath_congr {path other : String} (h : Path.isAbsolute path = true)
    (ho : Path.isAbsolute other = true) (same : Path.same path other = true) :
    ofPath path = ofPath other := by
  rw [ofPath_of_absolute h, ofPath_of_absolute ho, (Path.same_iff h ho).1 same]

/-- The id of an absolute path without double dots leads back to the path. -/
theorem path?_ofPath {path : String} (plain : Path.IsPlain path) :
    ∃ found, (ofPath path).path? = some found ∧ Path.same found path = true := by
  obtain ⟨h, up⟩ := plain
  have named : ∀ name ∈ Path.components path, Path.IsName name := fun _ => Path.isName_of_mem_components h
  have root : Path.isAbsolute (Path.ofComponents (Path.components path)) = true :=
    Path.isAbsolute_ofComponents _
  obtain ⟨absolute, components⟩ := closeDrive_same root
  refine ⟨closeDrive (Path.ofComponents (Path.components path)), ?_, ?_⟩
  · rw [ofPath_of_absolute h, path?]
    dsimp only
    rw [parse?_text_ofSegments (isSegment_of_mem_encodeNames named up), Option.bind_some,
      filePath?_encodeNames named up]
  · rw [Path.same_iff absolute h, components, Path.components_ofComponents named]

end DocId

end C3Lens
