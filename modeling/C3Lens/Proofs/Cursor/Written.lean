import C3Lens.Proofs.Cursor.Word
import C3Lens.Proofs.Text.Boundary

/-!
# Words are read as they are written

A word is written as the names of a module path, each in front of two colons, then names that dots join,
each with any groups in brackets behind it, and last the head (`WrittenWord`). To read to the left from
any place in the head inverts this (`words_as_written`): every name comes back with the range in which it is
written, however the groups are nested.

The other way round, whatever the text is, the names that are read are runs of word characters that no word
character continues, from left to right and with something between them.
-/

namespace C3Lens

theorem utf8Length_reverse (cs : List Char) : utf8Length cs.reverse = utf8Length cs := by
  induction cs with
  | nil => rfl
  | cons c cs ih =>
    rw [List.reverse_cons, utf8Length_append, ih, utf8Length_cons, utf8Length_cons]
    exact Nat.add_comm _ _

/-! ## Written words -/

/-- Whether a text closes the `depth` brackets that are open in front of it and all of its own, each behind
where it is opened. Either closing bracket ends either kind of group. -/
def closesBrackets (depth : Nat) : List Char → Bool
  | [] => depth == 0
  | c :: cs =>
    if c = '(' ∨ c = '[' then closesBrackets (depth + 1) cs
    else if c = ')' ∨ c = ']' then depth != 0 && closesBrackets (depth - 1) cs
    else closesBrackets depth cs

/-- A group in brackets behind a name. -/
structure BracketGroup where
  square : Bool
  inside : List Char
  closed : closesBrackets 0 inside = true

def BracketGroup.chars (g : BracketGroup) : List Char :=
  if g.square then '[' :: (g.inside ++ [']']) else '(' :: (g.inside ++ [')'])

/-- A name of a word. -/
structure WrittenName where
  chars : List Char
  nonempty : chars ≠ []
  parts : ∀ c ∈ chars, isWordPart c = true

/-- A name and the text that joins it to the name behind it. -/
structure Link where
  name : WrittenName
  joint : List Char

namespace Link

def chars (l : Link) : List Char :=
  l.name.chars ++ l.joint

def ofModule (n : WrittenName) : Link :=
  ⟨n, [':', ':']⟩

def ofAccess (a : WrittenName × List BracketGroup) : Link :=
  ⟨a.1, a.2.flatMap BracketGroup.chars ++ ['.']⟩

end Link

/-- The piece that `name` is behind the text `front`. -/
def Piece.written (front name : List Char) : Piece :=
  ⟨String.ofList name, utf8Length front⟩

/-- The names of links that are written one behind the other, the first one behind the text `front`. -/
def linkPieces (front : List Char) : List Link → List Piece
  | [] => []
  | l :: ls => .written front l.name.chars :: linkPieces (front ++ l.chars) ls

/-- A word: the names of its module path, the names that dots join to the head, with the groups behind
them, and the head. -/
structure WrittenWord where
  modules : List WrittenName
  access : List (WrittenName × List BracketGroup)
  head : WrittenName

namespace WrittenWord

def moduleChars (w : WrittenWord) : List Char :=
  (w.modules.map Link.ofModule).flatMap Link.chars

def accessChars (w : WrittenWord) : List Char :=
  (w.access.map Link.ofAccess).flatMap Link.chars

def chars (w : WrittenWord) : List Char :=
  w.moduleChars ++ w.accessChars ++ w.head.chars

/-- The word with the ranges that its names have in a document where it stands behind the text `front`. -/
def wordIn (w : WrittenWord) (d : Document) (front : List Char) : Word where
  head? := some (Word.part d (.written (front ++ w.moduleChars ++ w.accessChars) w.head.chars))
  access := (linkPieces (front ++ w.moduleChars) (w.access.map Link.ofAccess)).map (Word.part d)
  modules := (linkPieces front (w.modules.map Link.ofModule)).map (Word.part d)
  imported? := none

end WrittenWord

/-- No qualifier of a word behind the text ends with it: it ends neither with a word character nor with
a separator. -/
structure OpensWord (front : List Char) : Prop where
  name : ∀ c ∈ front.getLast?, isWordPart c = false
  dot : ∀ c ∈ front.getLast?, c ≠ '.'
  colons : ¬ [':', ':'] <:+ front

/-! ## Groups are passed over -/

/-- A text that closes its brackets does not end the search for the bracket that opens the group. -/
theorem beforeGroup_of_closesBrackets {depth : Nat} {cs : List Char} (closed : closesBrackets depth cs = true)
    (outer : Nat) (rest : List Char) :
    beforeGroup (outer + 1) (cs.reverse ++ rest) = beforeGroup (outer + 1 + depth) rest := by
  induction cs generalizing depth rest with
  | nil =>
    rw [closesBrackets, beq_iff_eq] at closed
    rw [closed]
    rfl
  | cons c cs ih =>
    have turned : (c :: cs).reverse ++ rest = cs.reverse ++ c :: rest := by simp
    rw [turned]
    rw [closesBrackets] at closed
    by_cases opening : c = '(' ∨ c = '['
    · have closing : ¬(c = ')' ∨ c = ']') := by
        rcases opening with rfl | rfl <;> decide
      rw [if_pos opening] at closed
      -- There is the bracket around `cs` that is open in front of it, so this one is not the last.
      rw [ih closed, beforeGroup, if_neg closing, if_pos opening, if_neg (by omega)]
      rfl
    rw [if_neg opening] at closed
    by_cases closing : c = ')' ∨ c = ']'
    · rw [if_pos closing, Bool.and_eq_true, bne_iff_ne] at closed
      obtain ⟨deeper, closed⟩ := closed
      rw [ih closed, beforeGroup, if_pos closing, Nat.add_assoc, Nat.sub_add_cancel (Nat.pos_of_ne_zero deeper)]
    · rw [if_neg closing] at closed
      rw [ih closed, beforeGroup, if_neg closing, if_neg opening]

theorem beforeGroup_group (g : BracketGroup) (rest : List Char) :
    beforeGroup 0 (g.chars.reverse ++ rest) = some rest := by
  cases square : g.square with
  | false =>
    have turned : g.chars.reverse ++ rest = ')' :: (g.inside.reverse ++ '(' :: rest) := by
      simp [BracketGroup.chars, square]
    rw [turned, beforeGroup, if_pos (by decide), beforeGroup_of_closesBrackets g.closed, beforeGroup,
      if_neg (by decide), if_pos (by decide), if_pos (by decide)]
  | true =>
    have turned : g.chars.reverse ++ rest = ']' :: (g.inside.reverse ++ '[' :: rest) := by
      simp [BracketGroup.chars, square]
    rw [turned, beforeGroup, if_pos (by decide), beforeGroup_of_closesBrackets g.closed, beforeGroup,
      if_neg (by decide), if_pos (by decide), if_pos (by decide)]

theorem head?_group (g : BracketGroup) (rest : List Char) :
    (g.chars.reverse ++ rest).head? = some ')' ∨ (g.chars.reverse ++ rest).head? = some ']' := by
  cases square : g.square <;> simp [BracketGroup.chars, square]

/-- Groups behind a name are passed over up to its end. -/
theorem beforeGroups_groups (gs : List BracketGroup) {rest : List Char}
    (name : ∀ c ∈ rest.head?, isWordPart c = true) :
    beforeGroups ((gs.flatMap BracketGroup.chars).reverse ++ rest) = rest := by
  induction gs using List.reverseRecOn with
  | nil =>
    rw [List.flatMap_nil, List.reverse_nil, List.nil_append, beforeGroups, if_neg]
    rintro (round | square)
    · exact absurd (name _ round) (by decide)
    · exact absurd (name _ square) (by decide)
  | append_singleton gs g ih =>
    have turned : ((gs ++ [g]).flatMap BracketGroup.chars).reverse ++ rest =
        g.chars.reverse ++ ((gs.flatMap BracketGroup.chars).reverse ++ rest) := by
      simp
    rw [turned, beforeGroups, if_pos (head?_group g _)]
    split
    next left passed =>
      rw [beforeGroup_group] at passed
      cases passed
      exact ih
    next none =>
      rw [beforeGroup_group] at none
      cases none

/-! ## Names are read one by one -/

theorem linkPieces_concat (front : List Char) (ls : List Link) (l : Link) :
    linkPieces front (ls ++ [l]) =
      linkPieces front ls ++ [.written (front ++ ls.flatMap Link.chars) l.name.chars] := by
  induction ls generalizing front with
  | nil => simp [linkPieces]
  | cons k ls ih =>
    rw [List.cons_append, linkPieces, ih, linkPieces, List.flatMap_cons, List.append_assoc]
    rfl

theorem ofReversed_reverse (front name : List Char) :
    Piece.ofReversed name.reverse front.reverse = .written front name := by
  rw [Piece.ofReversed, Piece.written, List.reverse_reverse, utf8Length_reverse]

section

variable {front : List Char}

theorem takeWhile_name (n : WrittenName) (ends : ∀ c ∈ front.getLast?, isWordPart c = false) :
    (n.chars.reverse ++ front.reverse).takeWhile isWordPart = n.chars.reverse := by
  have stops : front.reverse.takeWhile isWordPart = [] := by
    rwa [takeWhile_eq_nil_iff_head?, List.head?_reverse]
  rw [List.takeWhile_append_of_pos fun c hc => n.parts c (List.mem_reverse.1 hc), stops, List.append_nil]

theorem dropWhile_name (n : WrittenName) (ends : ∀ c ∈ front.getLast?, isWordPart c = false) :
    (n.chars.reverse ++ front.reverse).dropWhile isWordPart = front.reverse := by
  have whole := List.takeWhile_append_dropWhile (p := isWordPart) (l := n.chars.reverse ++ front.reverse)
  rw [takeWhile_name n ends] at whole
  exact List.append_cancel_left whole

/-- A name in front of two colons is read as the last one of the module path. -/
theorem readQualifiers_module (inModules : Bool) (n : WrittenName)
    (ends : ∀ c ∈ front.getLast?, isWordPart c = false) :
    readQualifiers inModules (front ++ (Link.ofModule n).chars).reverse =
      { readQualifiers true front.reverse with
        modules := (readQualifiers true front.reverse).modules ++ [.written front n.chars] } := by
  have turned : (front ++ (Link.ofModule n).chars).reverse =
      ':' :: ':' :: (n.chars.reverse ++ front.reverse) := by
    simp [Link.chars, Link.ofModule]
  have named : n.chars.reverse.isEmpty = false := by
    simpa using n.nonempty
  rw [turned, readQualifiers, takeWhile_name n ends, dropWhile_name n ends, named, ofReversed_reverse]
  rfl

/-- A name in front of a dot is read as the last one that dots join, with its groups passed over. -/
theorem readQualifiers_access (a : WrittenName × List BracketGroup)
    (ends : ∀ c ∈ front.getLast?, isWordPart c = false) :
    readQualifiers false (front ++ (Link.ofAccess a).chars).reverse =
      { readQualifiers false front.reverse with
        access := (readQualifiers false front.reverse).access ++ [.written front a.1.chars] } := by
  have turned : (front ++ (Link.ofAccess a).chars).reverse =
      '.' :: ((a.2.flatMap BracketGroup.chars).reverse ++ (a.1.chars.reverse ++ front.reverse)) := by
    simp [Link.chars, Link.ofAccess]
  have named : a.1.chars.reverse.isEmpty = false := by
    simpa using a.1.nonempty
  have name : ∀ c ∈ (a.1.chars.reverse ++ front.reverse).head?, isWordPart c = true := by
    intro c hc
    rw [List.head?_append_of_ne_nil _ (by simpa using a.1.nonempty)] at hc
    exact a.1.parts c (List.mem_reverse.1 (List.mem_of_head? hc))
  rw [turned, readQualifiers, beforeGroups_groups a.2 name, takeWhile_name a.1 ends, dropWhile_name a.1 ends,
    named, ofReversed_reverse]
  rfl

theorem readQualifiers_opensWord (opens : OpensWord front) (inModules : Bool) :
    readQualifiers inModules front.reverse = ⟨[], []⟩ := by
  rw [readQualifiers]
  · intro cs dotted
    refine opens.dot '.' ?_ rfl
    rw [← List.head?_reverse, dotted]
    rfl
  · intro cs double
    refine opens.colons ?_
    rw [← List.reverse_prefix, double]
    exact ⟨cs, rfl⟩

/-- Behind a link no name goes on. -/
theorem ends_links {α : Type} {make : α → Link}
    (joint : ∀ a, ∃ cs c, (make a).joint = cs ++ [c] ∧ isWordPart c = false)
    (ends : ∀ c ∈ front.getLast?, isWordPart c = false) (as : List α) :
    ∀ c ∈ (front ++ (as.map make).flatMap Link.chars).getLast?, isWordPart c = false := by
  rcases List.eq_nil_or_concat as with rfl | ⟨as, a, rfl⟩
  · simpa using ends
  · obtain ⟨cs, c, joined, plain⟩ := joint a
    simp [Link.chars, joined, plain]

theorem ends_modules (ends : ∀ c ∈ front.getLast?, isWordPart c = false) (ns : List WrittenName) :
    ∀ c ∈ (front ++ (ns.map Link.ofModule).flatMap Link.chars).getLast?, isWordPart c = false :=
  ends_links (fun _ => ⟨[':'], ':', rfl, by decide⟩) ends ns

theorem ends_access (ends : ∀ c ∈ front.getLast?, isWordPart c = false)
    (as : List (WrittenName × List BracketGroup)) :
    ∀ c ∈ (front ++ (as.map Link.ofAccess).flatMap Link.chars).getLast?, isWordPart c = false :=
  ends_links (fun a => ⟨a.2.flatMap BracketGroup.chars, '.', rfl, by decide⟩) ends as

theorem readQualifiers_modules (opens : OpensWord front) (inModules : Bool) (ns : List WrittenName) :
    readQualifiers inModules (front ++ (ns.map Link.ofModule).flatMap Link.chars).reverse =
      ⟨[], linkPieces front (ns.map Link.ofModule)⟩ := by
  induction ns using List.reverseRecOn generalizing inModules with
  | nil =>
    rw [List.map_nil, List.flatMap_nil, List.append_nil]
    exact readQualifiers_opensWord opens inModules
  | append_singleton ns n ih =>
    rw [List.map_append, List.map_singleton, List.flatMap_append, List.flatMap_singleton, ← List.append_assoc,
      readQualifiers_module inModules n (ends_modules opens.name ns), ih, linkPieces_concat]
    rfl

/-- The qualifiers of a written word are read back. -/
theorem readQualifiers_written (opens : OpensWord front) (w : WrittenWord) :
    readQualifiers false (front ++ w.moduleChars ++ w.accessChars).reverse =
      ⟨linkPieces (front ++ w.moduleChars) (w.access.map Link.ofAccess),
        linkPieces front (w.modules.map Link.ofModule)⟩ := by
  have ends := ends_modules opens.name w.modules
  rw [← WrittenWord.moduleChars] at ends
  rw [WrittenWord.accessChars]
  induction w.access using List.reverseRecOn with
  | nil =>
    rw [List.map_nil, List.flatMap_nil, List.append_nil]
    exact readQualifiers_modules opens false w.modules
  | append_singleton as a ih =>
    rw [List.map_append, List.map_singleton, List.flatMap_append, List.flatMap_singleton, ← List.append_assoc,
      readQualifiers_access a (ends_access ends as), ih, linkPieces_concat]
    rfl

end

/-! ## What is read stands in the text -/

/-- The piece is a run of word characters of the text that no word character continues. -/
def Piece.IsRunIn (q : Piece) (text : List Char) : Prop :=
  ∃ front behind, text = front ++ q.text.toList ++ behind ∧ q.start = utf8Length front ∧
    q.text.toList ≠ [] ∧ StandsAlone front q.text.toList behind

/-- A run that ends before a beginning of the text does is one of the whole text. -/
theorem Piece.IsRunIn.onward {q : Piece} {cs text : List Char} (run : q.IsRunIn cs)
    (within : q.stop < utf8Length cs) (start : cs <+: text) : q.IsRunIn text := by
  obtain ⟨front, behind, rfl, begins, nonempty, alone⟩ := run
  obtain ⟨more, rfl⟩ := start
  rw [Piece.stop, begins, utf8Length_append, utf8Length_append] at within
  have follows : behind ≠ [] := by
    rintro rfl
    exact Nat.lt_irrefl _ within
  refine ⟨front, behind ++ more, List.append_assoc _ _ _, begins, nonempty, alone.parts, alone.front, ?_⟩
  rw [List.head?_append_of_ne_nil _ follows]
  exact alone.behind

/-- The pieces of some text: runs of it, from left to right, that end in front of its end with something
behind each of them. -/
structure ReadFrom (qs : List Piece) (text : List Char) : Prop where
  runs : ∀ q ∈ qs, q.IsRunIn text
  within : ∀ q ∈ qs, q.stop < utf8Length text
  order : qs.Pairwise fun q r => q.stop < r.start

theorem ReadFrom.nil (text : List Char) : ReadFrom [] text :=
  ⟨by simp, by simp, List.Pairwise.nil⟩

theorem ReadFrom.onward {qs : List Piece} {cs text : List Char} (read : ReadFrom qs cs) (start : cs <+: text) :
    ReadFrom qs text :=
  ⟨fun q hq => (read.runs q hq).onward (read.within q hq) start,
    fun q hq => Nat.lt_of_lt_of_le (read.within q hq) (utf8Length_mono start), read.order⟩

/-- The next name stands behind those of the text in front of it. -/
theorem ReadFrom.concat {qs : List Piece} {front name gap : List Char} (read : ReadFrom qs front)
    (nonempty : name ≠ []) (alone : StandsAlone front name gap) (follows : gap ≠ []) :
    ReadFrom (qs ++ [.written front name]) (front ++ name ++ gap) := by
  have earlier : ReadFrom qs (front ++ name ++ gap) := read.onward ⟨name ++ gap, by simp⟩
  have text : (Piece.written front name).text.toList = name := String.toList_ofList
  obtain ⟨c, cs, rfl⟩ := List.exists_cons_of_ne_nil follows
  constructor
  · intro q hq
    rcases List.mem_append.1 hq with old | new
    · exact earlier.runs q old
    · rw [List.mem_singleton.1 new]
      refine ⟨front, c :: cs, ?_, rfl, ?_, ?_⟩
      · rw [text]
      · rwa [text]
      · rwa [text]
  · intro q hq
    rcases List.mem_append.1 hq with old | new
    · exact earlier.within q old
    · rw [List.mem_singleton.1 new, Piece.stop, text, utf8Length_append, utf8Length_append, utf8Length_cons]
      have pos := c.utf8Size_pos
      show utf8Length front + utf8Length name < _
      omega
  · rw [List.pairwise_append]
    refine ⟨read.order, List.pairwise_singleton _ _, fun q hq r hr => ?_⟩
    rw [List.mem_singleton.1 hr]
    exact read.within q hq

/-- What is left of the brackets that are passed over stands in front of one that opens a group. -/
theorem exists_passed_group {depth : Nat} {cs rest : List Char} (passed : beforeGroup depth cs = some rest) :
    ∃ gap c, cs = gap ++ c :: rest ∧ isWordPart c = false := by
  induction cs generalizing depth with
  | nil => cases passed
  | cons c cs ih =>
    have later : ∀ {n}, beforeGroup n cs = some rest →
        ∃ gap d, c :: cs = gap ++ d :: rest ∧ isWordPart d = false := by
      intro n found
      obtain ⟨gap, d, rfl, plain⟩ := ih found
      exact ⟨c :: gap, d, rfl, plain⟩
    rw [beforeGroup] at passed
    split at passed
    · exact later passed
    split at passed
    next opening =>
      split at passed
      · cases passed
        refine ⟨[], c, rfl, ?_⟩
        rcases opening with rfl | rfl <;> decide
      · exact later passed
    · exact later passed

theorem exists_passed (cs : List Char) :
    ∃ gap, cs = gap ++ beforeGroups cs ∧ ∀ c ∈ gap.getLast?, isWordPart c = false := by
  fun_induction beforeGroups cs with
  | case1 cs _ rest passed ih =>
    obtain ⟨gap, c, whole, plain⟩ := exists_passed_group passed
    obtain ⟨gaps, same, ends⟩ := ih
    refine ⟨gap ++ c :: gaps, ?_, ?_⟩
    · rw [whole, List.append_assoc, List.cons_append, ← same]
    · intro d hd
      rw [List.getLast?_append_of_ne_nil _ (List.cons_ne_nil c gaps)] at hd
      cases gaps with
      | nil =>
        cases hd
        exact plain
      | cons e gaps => exact ends d hd
  | case2 cs => exact ⟨[], rfl, by simp⟩
  | case3 cs => exact ⟨[], rfl, by simp⟩

/-- Names of a module path are not joined by dots. -/
theorem access_readQualifiers_true (before : List Char) : (readQualifiers true before).access = [] := by
  generalize same : true = inModules
  fun_induction readQualifiers inModules before with
  | case1 => rfl
  | case2 _ _ _ _ _ other =>
    subst same
    simp at other
  | case3 => rfl
  | case4 _ _ _ _ _ _ ih => exact ih rfl
  | case5 => rfl

/-- The word characters that are read to the left are all there are. -/
theorem standsAlone_left (left : List Char) {behind : List Char}
    (plain : ∀ c ∈ behind.head?, isWordPart c = false) :
    StandsAlone (left.dropWhile isWordPart).reverse (left.takeWhile isWordPart).reverse behind := by
  refine ⟨fun c hc => List.mem_takeWhile_imp (List.mem_reverse.1 hc), fun c hc => ?_, plain⟩
  rw [List.getLast?_reverse] at hc
  have stops := List.head?_dropWhile_not isWordPart left
  rw [hc] at stops
  exact stops

/-- A name that is read to the left, behind the ones that are read in front of it. -/
theorem ReadFrom.name {qs : List Piece} {left gap : List Char}
    (read : ReadFrom qs (left.dropWhile isWordPart).reverse)
    (nonempty : (left.takeWhile isWordPart).isEmpty = false)
    (plain : ∀ c ∈ gap.getLast?, isWordPart c = false) (follows : gap ≠ []) :
    ReadFrom (qs ++ [.ofReversed (left.takeWhile isWordPart) (left.dropWhile isWordPart)])
      (gap ++ left).reverse := by
  have name : (left.takeWhile isWordPart).reverse ≠ [] := by
    rwa [Ne, List.reverse_eq_nil_iff, ← List.isEmpty_iff, Bool.not_eq_true]
  have behind : ∀ c ∈ gap.reverse.head?, isWordPart c = false := by
    rwa [List.head?_reverse]
  have more := read.concat name (standsAlone_left left behind) (by simpa using follows)
  have text : (left.dropWhile isWordPart).reverse ++ (left.takeWhile isWordPart).reverse ++ gap.reverse =
      (gap ++ left).reverse := by
    rw [← List.reverse_append, List.takeWhile_append_dropWhile, List.reverse_append]
  rwa [text, ← ofReversed_reverse, List.reverse_reverse, List.reverse_reverse] at more

/-- The qualifiers are names of the text in front of the head, those of the module path first. -/
theorem readFrom_readQualifiers (inModules : Bool) (before : List Char) :
    ReadFrom ((readQualifiers inModules before).modules ++ (readQualifiers inModules before).access)
      before.reverse := by
  fun_induction readQualifiers inModules before with
  | case1 => exact .nil _
  | case2 inModules cs left name rest other q ih =>
    rw [Bool.or_eq_true, not_or, Bool.not_eq_true, Bool.not_eq_true] at other
    obtain ⟨gap, whole, plain⟩ := exists_passed cs
    have ends : ∀ c ∈ ('.' :: gap).getLast?, isWordPart c = false := by
      cases gap with
      | nil =>
        intro c hc
        cases hc
        decide
      | cons d gap => exact plain
    have more := ih.name other.2 ends (List.cons_ne_nil _ _)
    rw [List.append_assoc] at more
    rwa [List.cons_append, ← whole] at more
  | case3 => exact .nil _
  | case4 inModules cs name rest named q ih =>
    rw [Bool.not_eq_true] at named
    have none : q.access = [] := access_readQualifiers_true rest
    rw [none, List.append_nil] at ih ⊢
    have ends : ∀ c ∈ [':', ':'].getLast?, isWordPart c = false := by
      rintro c ⟨⟩
      decide
    exact ih.name named ends (List.cons_ne_nil _ _)
  | case5 => exact .nil _

/-- What a head can be besides a name. -/
def separators : List String :=
  ["", ".", ":"]

/-- What is found as the head stands behind the text with the qualifiers, and it is a run or a separator. -/
structure HeadIn (head : Piece) (left text : List Char) : Prop where
  start : left.reverse <+: text
  name : head.text ∉ separators → head.IsRunIn text ∧ head.start = utf8Length left

/-- The word characters around a cursor are a run of the text. -/
theorem headIn_around {before behind : List Char}
    (nonempty : (behind.takeWhile isWordPart).reverse ++ before.takeWhile isWordPart ≠ []) :
    HeadIn (.ofReversed ((behind.takeWhile isWordPart).reverse ++ before.takeWhile isWordPart)
      (before.dropWhile isWordPart)) (before.dropWhile isWordPart) (before.reverse ++ behind) := by
  have left : StandsAlone (before.dropWhile isWordPart).reverse (before.takeWhile isWordPart).reverse [] :=
    standsAlone_left before (by simp)
  have start : (before.dropWhile isWordPart).reverse <+: before.reverse :=
    List.reverse_prefix.2 (List.dropWhile_suffix _)
  refine ⟨start.trans (List.prefix_append _ _), fun _ => ⟨?_, rfl⟩⟩
  rw [← List.reverse_ne_nil_iff, List.reverse_append, List.reverse_reverse] at nonempty
  refine ⟨(before.dropWhile isWordPart).reverse, behind.dropWhile isWordPart, ?_, (utf8Length_reverse _).symm, ?_⟩
  all_goals rw [Piece.ofReversed, String.toList_ofList, List.reverse_append, List.reverse_reverse]
  · rw [← List.append_assoc, ← List.reverse_append, List.takeWhile_append_dropWhile, List.append_assoc,
      List.takeWhile_append_dropWhile]
  · refine ⟨nonempty, ?_, left.front, ?_⟩
    · intro c hc
      exact (List.mem_append.1 hc).elim (left.parts c) List.mem_takeWhile_imp
    · intro c hc
      have stops := List.head?_dropWhile_not isWordPart behind
      rw [hc] at stops
      exact stops

theorem headIn_headBefore {before behind left : List Char} {head : Piece}
    (other : ∀ c ∈ behind.head?, isWordPart c = false) (found : headBefore before = some (head, left)) :
    HeadIn head left (before.reverse ++ behind) := by
  have none : behind.takeWhile isWordPart = [] := takeWhile_eq_nil_iff_head?.2 other
  unfold headBefore at found
  split at found
  · cases found
  next c cs =>
    split at found
    next part =>
      cases found
      have nonempty : (behind.takeWhile isWordPart).reverse ++ (c :: cs).takeWhile isWordPart ≠ [] := by
        rw [none, List.takeWhile_cons_of_pos part]
        exact List.cons_ne_nil _ _
      have around := headIn_around nonempty
      rwa [none] at around
    next plain =>
      split at found
      · cases found
        have empty : String.ofList [] ∈ separators := by decide
        exact ⟨List.prefix_append _ _, fun name => absurd empty name⟩
      · cases found

theorem headIn_headAt {before behind left : List Char} {head : Piece}
    (found : headAt before behind = some (head, left)) : HeadIn head left (before.reverse ++ behind) := by
  unfold headAt at found
  split at found
  · exact headIn_headBefore (by simp) found
  next c cs =>
    split at found
    next part =>
      cases found
      refine headIn_around ?_
      rw [List.takeWhile_cons_of_pos part, List.reverse_cons]
      simp
    next plain =>
      split at found
      next dot =>
        cases found
        have separator : String.ofList ['.'] ∈ separators := by decide
        rw [beq_iff_eq.1 dot]
        exact ⟨by simp, fun name => absurd separator name⟩
      split at found
      next colon =>
        cases found
        have separator : String.ofList [':'] ∈ separators := by decide
        rw [beq_iff_eq.1 colon]
        refine ⟨?_, fun name => absurd separator name⟩
        split
        · simp
        split
        next double =>
          obtain ⟨ds, rfl⟩ := List.head?_eq_some_iff.1 (beq_iff_eq.1 double)
          simp
        · exact List.nil_prefix
      · exact headIn_headBefore (by simpa using plain) found

/-! ## Words of documents -/

/-- The names of a word: all parts but a head that is a separator. -/
def Word.names (w : Word) : List WordPart :=
  w.modules ++ w.access ++ w.head?.toList.filter fun h => h.text ∉ separators

/-- The part stands in the document as a run of word characters that no word character continues. -/
def WordPart.IsRunOf (h : WordPart) (d : Document) : Prop :=
  ∃ front behind, d.text.toList = front ++ h.text.toList ++ behind ∧
    h.range = ⟨d.position (utf8Length front), d.position (utf8Length (front ++ h.text.toList))⟩ ∧
    h.text.toList ≠ [] ∧ StandsAlone front h.text.toList behind

section

variable {d : Document}

theorem Piece.IsRunIn.isRunOf {q : Piece} (run : q.IsRunIn d.text.toList) : (Word.part d q).IsRunOf d := by
  obtain ⟨front, behind, text, start, nonempty, alone⟩ := run
  refine ⟨front, behind, text, ?_, nonempty, alone⟩
  rw [Word.part, Piece.stop, start, utf8Length_append]

/-- Runs with something between them have ranges with something between them. -/
theorem stop_lt_start_of_runs (lines : d.lines = LineTable.ofString d.text) {q r : Piece}
    (first : q.IsRunIn d.text.toList) (second : r.IsRunIn d.text.toList) (lt : q.stop < r.start) :
    (Word.part d q).range.stop < (Word.part d r).range.start := by
  obtain ⟨front, behind, text, start, -, -⟩ := first
  obtain ⟨front', behind', text', start', -, -⟩ := second
  have stop : Text.IsBoundary d.text q.stop :=
    ⟨front ++ q.text.toList, ⟨behind, text.symm⟩, by rw [Piece.stop, start, utf8Length_append]⟩
  have begins : Text.IsBoundary d.text r.start :=
    ⟨front', ⟨r.text.toList ++ behind', by rw [← List.append_assoc, text']⟩, start'.symm⟩
  show d.lines.position q.stop < d.lines.position r.start
  rw [lines]
  exact LineTable.position_lt_position stop begins lt

theorem takeWithin_append_dropWithin (size : Char → Nat) (room : Nat) (cs : List Char) :
    takeWithin size room cs ++ dropWithin size room cs = cs := by
  induction cs generalizing room with
  | nil => rfl
  | cons c cs ih =>
    rw [takeWithin, dropWithin]
    split
    · rw [List.cons_append, ih]
    · rfl

/-- The names of a word are pieces of the text, in its order. -/
theorem exists_names (d : Document) (p : Position) :
    ∃ qs : List Piece, (Word.ofPosition d p).names = qs.map (Word.part d) ∧
      (∀ q ∈ qs, q.IsRunIn d.text.toList) ∧ qs.Pairwise fun q r => q.stop < r.start := by
  have whole : ((takeWithin Char.utf8Size (d.offset p) d.text.toList).reverse).reverse ++
      dropWithin Char.utf8Size (d.offset p) d.text.toList = d.text.toList := by
    rw [List.reverse_reverse, takeWithin_append_dropWithin]
  rw [Word.ofPosition]
  split
  · exact ⟨[], rfl, by simp, List.Pairwise.nil⟩
  next head left found =>
    have inText := headIn_headAt found
    rw [whole] at inText
    have read := readFrom_readQualifiers false left
    have runs := (read.onward inText.start).runs
    by_cases name : head.text ∈ separators
    · refine ⟨_, ?_, runs, read.order⟩
      simp [Word.names, Word.part, name]
    · obtain ⟨run, start⟩ := inText.name name
      refine ⟨(readQualifiers false left).modules ++ (readQualifiers false left).access ++ [head], ?_, ?_, ?_⟩
      · simp [Word.names, Word.part, name]
      · intro q hq
        rcases List.mem_append.1 hq with qualifier | last
        · exact runs q qualifier
        · rwa [List.mem_singleton.1 last]
      · rw [List.pairwise_append]
        refine ⟨read.order, List.pairwise_singleton _ _, fun q hq r hr => ?_⟩
        rw [List.mem_singleton.1 hr, start, ← utf8Length_reverse]
        exact read.within q hq

/-- At a position in the head a written word is read back. -/
theorem Word.ofPosition_written (lines : d.lines = LineTable.ofString d.text) (w : WrittenWord)
    {front behind : List Char} (text : d.text.toList = front ++ w.chars ++ behind) (opens : OpensWord front)
    (closes : ∀ c ∈ behind.head?, isWordPart c = false) {p : Position}
    (start : (w.wordIn d front).range.start ≤ p) (stop : p < (w.wordIn d front).range.stop) :
    ofPosition d p = w.wordIn d front := by
  have readLeft := readQualifiers_written opens w
  have ends := ends_access (ends_modules opens.name w.modules) w.access
  rw [← WrittenWord.moduleChars, ← WrittenWord.accessChars] at ends
  rw [WrittenWord.chars, ← List.append_assoc, ← List.append_assoc] at text
  have range : (w.wordIn d front).range =
      (part d (.written (front ++ w.moduleChars ++ w.accessChars) w.head.chars)).range := rfl
  rw [range] at start stop
  rw [WrittenWord.wordIn]
  -- From here on the text in front of the head matters as a whole.
  generalize front ++ w.moduleChars ++ w.accessChars = before at *
  have span : (part d (.written before w.head.chars)).range =
      ⟨d.position (utf8Length before), d.position (utf8Length (before ++ w.head.chars))⟩ := by
    show Range.mk _ (d.position (utf8Length before + utf8Length (String.ofList w.head.chars).toList)) = _
    rw [String.toList_ofList, utf8Length_append]
    rfl
  rw [span] at start stop
  obtain ⟨first, rest, cut, left, right⟩ := exists_cut lines text (p := p) (by
    rw [Range.contains, decide_eq_true start, decide_eq_true (Position.le_of_lt stop)]
    rfl)
  have nonempty : rest ≠ [] := by
    -- Otherwise the position is at the end of the head or behind it.
    rintro rfl
    have reached := LineTable.position_takeWithin 0 (d.offset p) d.text.toList
    rw [Nat.zero_add, Nat.zero_add, left, ← List.append_nil first, ← cut] at reached
    have back : d.position (d.offset p) ≤ p := by
      rw [Document.position, Document.offset, lines]
      exact LineTable.position_offset_le d.text p
    have same : d.position (d.offset p) = d.position (utf8Length (before ++ w.head.chars)) := by
      rw [Document.position, Document.position, lines]
      exact reached
    rw [same] at back
    exact back stop
  have stopLeft : before.reverse.takeWhile isWordPart = [] := by
    rwa [takeWhile_eq_nil_iff_head?, List.head?_reverse]
  have stopRight : behind.takeWhile isWordPart = [] := takeWhile_eq_nil_iff_head?.2 closes
  have whole := List.takeWhile_append_dropWhile (p := isWordPart) (l := before.reverse)
  rw [stopLeft, List.nil_append] at whole
  have head : (rest ++ behind.takeWhile isWordPart).reverse ++
      (first.reverse ++ before.reverse.takeWhile isWordPart) = w.head.chars.reverse := by
    rw [stopLeft, stopRight, List.append_nil, List.append_nil, ← List.reverse_append, ← cut]
  rw [ofPosition, left, ← Document.behind, right,
    headAt_of_parts (by rw [← cut]; exact w.head.nonempty) (by rw [← cut]; exact w.head.parts)
      (fun empty => absurd empty nonempty), head, whole, ofReversed_reverse]
  dsimp only
  rw [readLeft]

/-- A word that stands in a document behind a text that no qualifier ends with, and in front of one that does
not go on with its head, is the word at every position in the head, with each of its names in the range
where it is written. For every position of every document the names of the word are runs of word characters that
no word character continues, from left to right and with something between them. -/
theorem words_as_written (lines : d.lines = LineTable.ofString d.text) :
    (∀ (w : WrittenWord) (front behind : List Char) (p : Position), d.text.toList = front ++ w.chars ++ behind →
      OpensWord front → (∀ c ∈ behind.head?, isWordPart c = false) →
      (w.wordIn d front).range.start ≤ p → p < (w.wordIn d front).range.stop →
      Word.ofPosition d p = w.wordIn d front) ∧
    ∀ p, (∀ h ∈ (Word.ofPosition d p).names, h.IsRunOf d) ∧
      (Word.ofPosition d p).names.Pairwise fun h g => h.range.stop < g.range.start := by
  refine ⟨fun w _ _ _ text opens closes => Word.ofPosition_written lines w text opens closes, fun p => ?_⟩
  obtain ⟨qs, names, runs, order⟩ := exists_names d p
  rw [names]
  constructor
  · intro h hh
    obtain ⟨q, hq, rfl⟩ := List.mem_map.1 hh
    exact (runs q hq).isRunOf
  · rw [List.pairwise_map]
    exact order.imp_of_mem fun hq hr lt => stop_lt_start_of_runs lines (runs _ hq) (runs _ hr) lt

end

/-- The word `m::f(a[0])[1].h2`. -/
def callWord : WrittenWord where
  modules := [⟨['m'], List.cons_ne_nil _ _, List.forall_mem_singleton.2 rfl⟩]
  access :=
    [(⟨['f'], List.cons_ne_nil _ _, List.forall_mem_singleton.2 rfl⟩,
      [⟨false, "a[0]".toList, by decide⟩, ⟨true, "1".toList, by decide⟩])]
  head := ⟨['h', '2'], List.cons_ne_nil _ _, List.forall_mem_cons.2 ⟨rfl, List.forall_mem_singleton.2 rfl⟩⟩

theorem words_as_written_call :
    Word.ofPosition (.ofText ⟨"a.c3"⟩ "=m::f(a[0])[1].h2;" 0) ⟨0, 16⟩ =
      ⟨some ⟨"h2", .of 0 15 0 17⟩, [⟨"f", .of 0 4 0 5⟩], [⟨"m", .of 0 1 0 2⟩], none⟩ := by
  have text : (Document.ofText ⟨"a.c3"⟩ "=m::f(a[0])[1].h2;" 0).text.toList =
      ['='] ++ callWord.chars ++ [';'] := by decide
  have opens : OpensWord ['='] := by
    refine ⟨?_, ?_, by decide⟩
    · rintro c ⟨⟩
      decide
    · rintro c ⟨⟩
      decide
  have closes : ∀ c ∈ [';'].head?, isWordPart c = false := by
    rintro c ⟨⟩
    decide
  have read := (words_as_written rfl).1 callWord ['='] [';'] ⟨0, 16⟩ text opens closes (by decide)
    (by decide)
  rw [read]
  decide

end C3Lens
