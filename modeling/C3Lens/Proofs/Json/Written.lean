import C3Lens.Json.Parser
import C3Lens.Json.Printer

/-!
# Written values are read back

A value that holds no numbers but naturals of 64 bits is read back as it was written, as long as the
guide of the reader needs all its members (`Guide.Takes`): exactly if its lists nest at most 127
levels deep (`parseBy?_print`).

The leaves come first: strings with their escapes (`stringScan_quote`) and numerals
(`number_toString`). Lists are read item by item, whatever the items are (`listItems_written`).
-/

namespace C3Lens.Json

/-! ## Strings -/

theorem hexValue?_lowerHexDigit {n : Nat} (h : n < 16) :
    Text.hexValue? (Text.lowerHexDigit n) = some n := by
  have all : ∀ n : Fin 16, Text.hexValue? (Text.lowerHexDigit n) = some n.val := by decide
  exact all ⟨n, h⟩

/-- The escape of a control character. -/
theorem unicodeEscape_control {c : Char} (h : c.toNat < 0x20) (s : List Char) :
    unicodeEscape ('0' :: '0' :: Text.lowerHexDigit (c.toNat / 16) ::
      Text.lowerHexDigit (c.toNat % 16) :: s) = some (c, s) := by
  have zero : Text.hexValue? '0' = some 0 := rfl
  have code : c.toNat / 16 * 16 + c.toNat % 16 = c.toNat := by omega
  have digits : hex4 ('0' :: '0' :: Text.lowerHexDigit (c.toNat / 16) ::
      Text.lowerHexDigit (c.toNat % 16) :: s) = some (c.toNat, s) := by
    simp only [hex4, zero, hexValue?_lowerHexDigit (show c.toNat / 16 < 16 by omega),
      hexValue?_lowerHexDigit (show c.toNat % 16 < 16 by omega), bind, Option.bind, pure,
      Nat.zero_mul, Nat.zero_add, code]
  have low : ¬ 0xDC00 ≤ c.toNat := by omega
  have high : ¬ 0xD800 ≤ c.toNat := by omega
  simp [unicodeEscape, digits, low, high]

theorem stringBody_escapeChar (n : Nat) (done : List Char) (c : Char) (s : List Char) :
    stringBody (n + 1) done (escapeChar c ++ s) = stringBody n (c :: done) s := by
  unfold escapeChar
  split
  case h_8 noQuote noBackslash _ _ _ _ _ =>
    split
    next control =>
      simp [stringBody, escape, unicodeEscape_control control]
    next plain =>
      rw [List.singleton_append, stringBody, if_neg noQuote, if_neg noBackslash, if_neg plain]
  all_goals rfl

theorem stringBody_written (cs rest : List Char) (n : Nat) (done : List Char) (h : cs.length < n) :
    stringBody n done (cs.flatMap escapeChar ++ '\x22' :: rest) =
      some (String.ofList (done.reverse ++ cs), rest) := by
  induction cs generalizing n done with
  | nil =>
    obtain ⟨n, rfl⟩ : ∃ k, n = k + 1 := ⟨n - 1, by omega⟩
    simp [stringBody]
  | cons c cs ih =>
    obtain ⟨n, rfl⟩ : ∃ k, n = k + 1 := ⟨n - 1, by omega⟩
    rw [List.flatMap_cons, List.append_assoc, stringBody_escapeChar, ih n (c :: done) (by simpa using h)]
    simp

theorem length_escapeChar_pos (c : Char) : 0 < (escapeChar c).length := by
  unfold escapeChar
  split
  case h_8 => split <;> simp
  all_goals simp

theorem length_le_flatMap_escapeChar (cs : List Char) : cs.length ≤ (cs.flatMap escapeChar).length := by
  induction cs with
  | nil => simp
  | cons c cs ih =>
    have pos := length_escapeChar_pos c
    simp only [List.flatMap_cons, List.length_append, List.length_cons]
    omega

/-- A string is read back. -/
theorem stringScan_quote (s : String) (rest : List Char) :
    stringScan (quote s ++ rest) = some (s, rest) := by
  have enough := length_le_flatMap_escapeChar s.toList
  rw [quote, List.cons_append, List.append_assoc, List.singleton_append, stringScan,
    stringBody_written _ _ _ _ (by simp only [List.length_append, List.length_cons]; omega)]
  simp

/-! ## Numerals -/

/-- Whether a character goes on with a numeral. -/
def isNumeralPart (c : Char) : Bool :=
  c.isDigit || c == '.' || c == 'e' || c == 'E'

/-- Whether a value may end in front of the text. -/
def Ends (rest : List Char) : Prop :=
  ∀ c ∈ rest.head?, isNumeralPart c = false

theorem head?_toDigits_append (n : Nat) (s : List Char) :
    (Nat.toDigits 10 n ++ s).head? = (Nat.toDigits 10 n).head? := by
  obtain ⟨d, ds, digits⟩ := List.exists_cons_of_ne_nil (Nat.toDigits_ne_nil (n := n) (b := 10))
  rw [digits, List.cons_append, List.head?_cons, List.head?_cons]

theorem head?_toDigits_ne_zero {n : Nat} (h : 0 < n) : (Nat.toDigits 10 n).head? ≠ some '0' := by
  induction n using Nat.strongRecOn with
  | ind n ih =>
    rw [Nat.toDigits_eq_if (by decide)]
    split
    next small =>
      simp only [List.head?_cons, ne_eq, Option.some.injEq, Nat.digitChar_eq_zero]
      omega
    next large =>
      have before := ih (n / 10) (by omega) (by omega)
      rw [head?_toDigits_append]
      exact before

/-- Only zero begins with the digit zero. -/
theorem toDigits_of_head?_zero {n : Nat} (h : (Nat.toDigits 10 n).head? = some '0') : n = 0 :=
  Nat.eq_zero_of_not_pos fun pos => head?_toDigits_ne_zero pos h

theorem digitsValue_toDigits (n : Nat) : digitsValue (Nat.toDigits 10 n) = n := by
  have fold := Nat.ofDigitChars_ten_toDigits (n := n)
  rw [Nat.ofDigitChars_eq_foldl] at fold
  have step : (fun (n : Nat) (d : Char) => n * 10 + digitValue d) =
      fun sofar c => 10 * sofar + (c.toNat - '0'.toNat) := by
    funext sofar c
    rw [digitValue, Nat.mul_comm]
    rfl
  rw [digitsValue, step]
  exact fold

theorem takeWhile_isDigit {ds rest : List Char} (digits : ∀ d ∈ ds, d.isDigit) (ends : Ends rest) :
    (ds ++ rest).takeWhile Char.isDigit = ds := by
  rw [List.takeWhile_append_of_pos digits]
  cases rest with
  | nil => simp
  | cons c rest =>
    have stop := ends c rfl
    simp only [isNumeralPart, Bool.or_eq_false_iff] at stop
    rw [List.takeWhile_cons_of_neg (by simp [stop.1.1.1]), List.append_nil]

/-- The digits of a natural number make a numeral without fraction and exponent. -/
theorem scan_toDigits (n : Nat) {rest : List Char} (ends : Ends rest) :
    Numeral.scan (Nat.toDigits 10 n ++ rest) = some (⟨false, Nat.toDigits 10 n, [], none⟩, rest) := by
  have digits : ∀ d ∈ Nat.toDigits 10 n, d.isDigit := fun d hd =>
    Nat.isDigit_of_mem_toDigits (by decide) (by decide) hd
  have whole := takeWhile_isDigit digits ends
  have unsigned : ((Nat.toDigits 10 n ++ rest).head? == some '-') = false := by
    rw [head?_toDigits_append, beq_eq_false_iff_ne]
    intro minus
    have digit := digits '-' (List.mem_of_mem_head? minus)
    cases digit
  have noZero : ((Nat.toDigits 10 n).isEmpty || ((Nat.toDigits 10 n).head? == some '0' &&
      decide ((Nat.toDigits 10 n).length > 1))) = false := by
    rw [Bool.or_eq_false_iff, Bool.and_eq_false_iff]
    refine ⟨by simp [Nat.toDigits_ne_nil], ?_⟩
    by_cases zero : (Nat.toDigits 10 n).head? = some '0'
    · rw [toDigits_of_head?_zero zero]
      exact .inr rfl
    · exact .inl (by simpa using zero)
  have behind : (Nat.toDigits 10 n ++ rest).drop (Nat.toDigits 10 n).length = rest := List.drop_left
  simp only [Numeral.scan, unsigned, Bool.false_eq_true, if_false, whole, noZero, behind]
  cases rest with
  | nil => rfl
  | cons c rest =>
    have stop := ends c rfl
    simp only [isNumeralPart, Bool.or_eq_false_iff, beq_eq_false_iff_ne] at stop
    have dot : c ≠ '.' := stop.1.1.2
    split
    next _ t same => exact absurd (List.cons.inj same).1 dot
    next => simp [stop.1.2, stop.2]

/-- A natural number of 64 bits is read back. -/
theorem number_toString {n : Nat} (bound : n ≤ mostPositive) {rest : List Char} (ends : Ends rest) :
    number ((toString (n : Int)).toList ++ rest) = some (int n, rest) := by
  have digits : (toString (n : Int)).toList = Nat.toDigits 10 n := Nat.toList_repr (n := n)
  have value : (⟨false, Nat.toDigits 10 n, [], none⟩ : Numeral).integer? = some (n : Int) := by
    simp [Numeral.integer?, digitsValue_toDigits, bound]
  rw [digits, number, scan_toDigits n ends]
  simp only [bind, Option.bind, value, pure]

/-! ## Lists -/

section Lists

variable {α β : Type} {close : Char} {item : Nat → Scan α} {text : β → List Char}
  {read : β → Option α}

/-- Items of a list, each behind its comma. -/
def behindCommas (text : β → List Char) (bs : List β) : List Char :=
  bs.flatMap fun b => ',' :: text b

theorem length_le_behindCommas (text : β → List Char) (bs : List β) :
    bs.length ≤ (behindCommas text bs).length := by
  induction bs with
  | nil => exact Nat.zero_le _
  | cons b bs ih =>
    simp only [behindCommas, List.flatMap_cons, List.length_append, List.length_cons] at ih ⊢
    omega

theorem skipBlanks_cons {c : Char} (h : isBlank c = false) (s : List Char) :
    skipBlanks (c :: s) = c :: s :=
  List.dropWhile_cons_of_neg (by simp [h])

theorem ends_cons {c : Char} (h : isNumeralPart c = false) (s : List Char) : Ends (c :: s) := by
  intro d hd
  rw [List.head?_cons, Option.mem_some_iff] at hd
  rw [← hd, h]

/-- What follows an item of a list: a comma or the closing bracket. -/
theorem ends_behindCommas (h : isNumeralPart close = false) (bs : List β) (rest : List Char) :
    Ends (behindCommas text bs ++ close :: rest) := by
  cases bs with
  | nil => exact ends_cons h rest
  | cons b bs => exact ends_cons rfl _

variable (noComma : close ≠ ',') (noBlank : isBlank close = false)
  (noNumeral : isNumeralPart close = false)

include noComma noBlank noNumeral

theorem furtherItems_written {bs : List β} {place : Nat}
    (each : ∀ i b, bs[i]? = some b → ∀ rest, Ends rest →
      item (place + i) (text b ++ rest) = (read b).map (·, rest))
    {n : Nat} (enough : bs.length < n) (done : List α) (rest : List Char) :
    furtherItems close item n place done (behindCommas text bs ++ close :: rest) =
      (bs.mapM read).map fun as => (done.reverse ++ as, rest) := by
  induction bs generalizing place n done with
  | nil =>
    obtain ⟨n, rfl⟩ : ∃ k, n = k + 1 := ⟨n - 1, by simp only [List.length_nil] at enough; omega⟩
    simp [furtherItems, behindCommas, skipBlanks_cons noBlank]
  | cons b bs ih =>
    obtain ⟨n, rfl⟩ : ∃ k, n = k + 1 := ⟨n - 1, by omega⟩
    have first := each 0 b rfl (behindCommas text bs ++ close :: rest) (ends_behindCommas noNumeral bs rest)
    have later : ∀ i c, bs[i]? = some c → ∀ rest, Ends rest →
        item (place + 1 + i) (text c ++ rest) = (read c).map (·, rest) := by
      intro i c hc
      have h := each (i + 1) c hc
      rwa [show place + (i + 1) = place + 1 + i by omega] at h
    have comma : behindCommas text (b :: bs) ++ close :: rest =
        ',' :: (text b ++ (behindCommas text bs ++ close :: rest)) := by
      simp [behindCommas]
    rw [comma, furtherItems, skipBlanks_cons rfl]
    simp only [if_neg noComma.symm, if_true]
    rw [Nat.add_zero] at first
    rw [first, List.mapM_cons]
    cases read b with
    | none => rfl
    | some a =>
      have rest := ih later (by simpa using enough) (a :: done)
      simp only [Option.map_some, rest, bind, Option.bind, pure]
      cases bs.mapM read with
      | none => rfl
      | some as => simp

/-- A list is read item by item. -/
theorem listItems_written {b : β} {bs : List β}
    (each : ∀ i c, (b :: bs)[i]? = some c → ∀ rest, Ends rest →
      item i (text c ++ rest) = (read c).map (·, rest))
    {c : Char} {t : List Char} (begins : text b = c :: t) (solid : isBlank c = false)
    (opens : c ≠ close) (rest : List Char) :
    listItems close item (text b ++ (behindCommas text bs ++ close :: rest)) =
      ((b :: bs).mapM read).map (·, rest) := by
  have first := each 0 b rfl (behindCommas text bs ++ close :: rest) (ends_behindCommas noNumeral bs rest)
  have later : ∀ i c, bs[i]? = some c → ∀ rest, Ends rest →
      item (1 + i) (text c ++ rest) = (read c).map (·, rest) := by
    intro i c hc
    rw [Nat.add_comm]
    exact each (i + 1) c hc
  have whole : text b ++ (behindCommas text bs ++ close :: rest) =
      c :: (t ++ (behindCommas text bs ++ close :: rest)) := by
    rw [begins, List.cons_append]
  have enough : bs.length < (behindCommas text bs ++ close :: rest).length + 1 := by
    have commas := length_le_behindCommas text bs
    rw [List.length_append]
    omega
  rw [listItems, whole, skipBlanks_cons solid]
  simp only [if_neg opens]
  rw [← whole, first, List.mapM_cons]
  cases read b with
  | none => rfl
  | some a =>
    have rest := furtherItems_written noComma noBlank noNumeral later enough [a] rest
    simp only [Option.map_some, rest, bind, Option.bind, pure]
    cases bs.mapM read with
    | none => rfl
    | some as => simp

end Lists

/-! ## Values -/

mutual

/-- Number of levels that lists nest in a value. -/
def levels : Json → Nat
  | array items => levelsOfItems items + 1
  | object members => levelsOfMembers members + 1
  | _ => 0

/-- Most levels in a value among items. -/
def levelsOfItems : List Json → Nat
  | [] => 0
  | j :: js => max (levels j) (levelsOfItems js)

/-- Most levels in a value among members. -/
def levelsOfMembers : List (String × Json) → Nat
  | [] => 0
  | (_, j) :: ms => max (levels j) (levelsOfMembers ms)

end

variable {σ : Type}

mutual

/-- Whether a reader with the guide takes the whole value: all members are needed, and all numbers
are naturals of 64 bits. -/
def Guide.Takes (guide : Guide σ) (here : σ) : Json → Prop
  | int n => 0 ≤ n ∧ n ≤ mostPositive
  | float _ => False
  | array items => Guide.TakesItems guide here 0 items
  | object members => Guide.TakesMembers guide here members
  | _ => True

/-- The same for the items of an array from a place on. -/
def Guide.TakesItems (guide : Guide σ) (here : σ) : Nat → List Json → Prop
  | _, [] => True
  | place, j :: js =>
    Guide.Takes guide (guide.item here place) j ∧ Guide.TakesItems guide here (place + 1) js

/-- The same for the members of an object. -/
def Guide.TakesMembers (guide : Guide σ) (here : σ) : List (String × Json) → Prop
  | [] => True
  | (name, j) :: ms =>
    (∃ next, guide.member? here name = some next ∧ Guide.Takes guide next j) ∧
      Guide.TakesMembers guide here ms

end

/-- The written form of a member. -/
def writtenMember (m : String × Json) : List Char :=
  quote m.1 ++ ':' :: written m.2

theorem writtenItems_cons (j : Json) (js : List Json) :
    writtenItems (j :: js) = written j ++ behindCommas written js := by
  induction js generalizing j with
  | nil => simp [writtenItems, behindCommas]
  | cons k js ih =>
    rw [writtenItems, ih k]
    · rfl
    · exact List.cons_ne_nil k js

theorem writtenMembers_cons (m : String × Json) (ms : List (String × Json)) :
    writtenMembers (m :: ms) = writtenMember m ++ behindCommas writtenMember ms := by
  induction ms generalizing m with
  | nil => simp [writtenMembers, writtenMember, behindCommas]
  | cons k ms ih =>
    rw [writtenMembers, ih k]
    · simp [writtenMember, behindCommas]
    · exact List.cons_ne_nil k ms

theorem levelsOfItems_le_iff {js : List Json} {d : Nat} :
    levelsOfItems js ≤ d ↔ ∀ j ∈ js, levels j ≤ d := by
  induction js with
  | nil => simp [levelsOfItems]
  | cons j js ih => rw [levelsOfItems, Nat.max_le, ih, List.forall_mem_cons]

theorem levelsOfMembers_le_iff {ms : List (String × Json)} {d : Nat} :
    levelsOfMembers ms ≤ d ↔ ∀ m ∈ ms, levels m.2 ≤ d := by
  induction ms with
  | nil => simp [levelsOfMembers]
  | cons m ms ih => rw [levelsOfMembers, Nat.max_le, ih, List.forall_mem_cons]

/-- Reading a list whose items are read or not fails with the first one that is not. -/
theorem mapM_guarded {α β : Type} {p : β → Prop} [DecidablePred p] {f : β → α} {bs : List β} {q : Prop}
    [Decidable q] (all : q ↔ ∀ b ∈ bs, p b) :
    bs.mapM (fun b => if p b then some (f b) else none) = if q then some (bs.map f) else none := by
  have reads : ∀ bs : List β, (∀ b ∈ bs, p b) →
      bs.mapM (fun b => if p b then some (f b) else none) = some (bs.map f) := by
    intro bs h
    induction bs with
    | nil => rfl
    | cons b bs ih =>
      rw [List.forall_mem_cons] at h
      rw [List.mapM_cons, if_pos h.1, ih h.2]
      rfl
  have fails : ∀ bs : List β, (¬ ∀ b ∈ bs, p b) →
      bs.mapM (fun b => if p b then some (f b) else none) = none := by
    intro bs h
    induction bs with
    | nil => exact absurd (fun b hb => absurd hb List.not_mem_nil) h
    | cons b bs ih =>
      rw [List.mapM_cons]
      by_cases hb : p b
      · rw [if_pos hb, ih fun hbs => h (List.forall_mem_cons.2 ⟨hb, hbs⟩)]
        rfl
      · rw [if_neg hb]
        rfl
  split
  next holds => exact reads bs (all.1 holds)
  next fails' => exact fails bs fun h => fails' (all.2 h)

/-- A value begins with a character that is no blank and closes no list. -/
theorem exists_cons_written {guide : Guide σ} {here : σ} {j : Json} (h : guide.Takes here j) :
    ∃ c t, written j = c :: t ∧ isBlank c = false ∧ c ≠ ']' ∧ c ≠ '\x7d' := by
  match j with
  | null => exact ⟨'n', _, rfl, rfl, by decide, by decide⟩
  | bool true => exact ⟨'t', _, rfl, rfl, by decide, by decide⟩
  | bool false => exact ⟨'f', _, rfl, rfl, by decide, by decide⟩
  | string s => exact ⟨'\x22', _, rfl, rfl, by decide, by decide⟩
  | array items => exact ⟨'[', _, rfl, rfl, by decide, by decide⟩
  | object members => exact ⟨'\x7b', _, rfl, rfl, by decide, by decide⟩
  | float _ => exact h.elim
  | int n =>
    obtain ⟨n, rfl⟩ := Int.eq_ofNat_of_zero_le h.1
    obtain ⟨d, ds, digits⟩ := List.exists_cons_of_ne_nil (Nat.toDigits_ne_nil (n := n) (b := 10))
    have digit : d.isDigit := Nat.isDigit_of_mem_toDigits (b := 10) (n := n) (by decide) (by decide)
      (by rw [digits]; exact List.mem_cons_self)
    have spelled : written (int n) = d :: ds := digits ▸ Nat.toList_repr (n := n)
    refine ⟨d, ds, spelled, ?_, ?_, ?_⟩
    · simp only [isBlank, Bool.or_eq_false_iff, beq_eq_false_iff_ne]
      refine ⟨⟨⟨?_, ?_⟩, ?_⟩, ?_⟩ <;> rintro rfl <;> cases digit
    · rintro rfl
      cases digit
    · rintro rfl
      cases digit

/-- What is read of a value where lists may nest `depth` levels deep. -/
def within (depth : Nat) (j : Json) : Option Json :=
  if levels j ≤ depth then some j else none

/-- The same for a member. -/
def memberWithin (depth : Nat) (m : String × Json) : Option (Option (String × Json)) :=
  if levels m.2 ≤ depth then some (some m) else none

theorem mapM_within (depth : Nat) (js : List Json) :
    js.mapM (within depth) = if levelsOfItems js ≤ depth then some js else none := by
  have guarded := mapM_guarded (f := id) (@levelsOfItems_le_iff js depth)
  rwa [List.map_id] at guarded

theorem mapM_memberWithin (depth : Nat) (ms : List (String × Json)) :
    ms.mapM (memberWithin depth) =
      if levelsOfMembers ms ≤ depth then some (ms.map some) else none :=
  mapM_guarded levelsOfMembers_le_iff

theorem memberScan_written {read? : String → Option (Scan Json)} {m : String × Json}
    {read : Scan Json} (needed : read? m.1 = some read) {rest : List Char} {depth : Nat}
    (value : read (written m.2 ++ rest) = (within depth m.2).map (·, rest)) :
    memberScan read? (writtenMember m ++ rest) = (memberWithin depth m).map (·, rest) := by
  have name : writtenMember m ++ rest = quote m.1 ++ (':' :: (written m.2 ++ rest)) := by
    simp [writtenMember]
  have solid : skipBlanks (quote m.1 ++ (':' :: (written m.2 ++ rest))) =
    quote m.1 ++ (':' :: (written m.2 ++ rest)) := skipBlanks_cons rfl _
  have colon : expectWord ":" (skipBlanks (':' :: (written m.2 ++ rest))) =
      some (written m.2 ++ rest) := by
    rw [skipBlanks_cons rfl]
    rfl
  rw [name, memberScan, solid, stringScan_quote]
  simp only [bind, Option.bind, colon, needed, value, within, memberWithin, pure]
  by_cases deep : levels m.2 ≤ depth
  · rw [if_pos deep, if_pos deep]
    rfl
  · rw [if_neg deep, if_neg deep]
    rfl

theorem value_array (guide : Guide σ) (depth : Nat) (here : σ) (s : List Char) :
    value guide (depth + 1) here ('[' :: s) = if depth = 0 then none else
      (listItems ']' (fun place => value guide depth (guide.item here place)) s).map
        fun (js, s) => (array js, s) := by
  rw [value, skipBlanks_cons rfl]
  rfl

theorem value_object (guide : Guide σ) (depth : Nat) (here : σ) (s : List Char) :
    value guide (depth + 1) here ('\x7b' :: s) = if depth = 0 then none else
      (listItems '\x7d'
          (fun _ => memberScan fun name => (guide.member? here name).map (value guide depth)) s).map
        fun (ms, s) => (object (ms.filterMap id), s) := by
  rw [value, skipBlanks_cons rfl]
  rfl

theorem value_number (guide : Guide σ) (depth : Nat) (here : σ) {n : Nat} (bound : n ≤ mostPositive)
    {rest : List Char} (ends : Ends rest) :
    value guide (depth + 1) here (written (int n) ++ rest) = some (int n, rest) := by
  obtain ⟨d, ds, digits⟩ := List.exists_cons_of_ne_nil (Nat.toDigits_ne_nil (n := n) (b := 10))
  have digit : d.isDigit := Nat.isDigit_of_mem_toDigits (b := 10) (n := n) (by decide) (by decide)
    (by rw [digits]; exact List.mem_cons_self)
  have spelled : written (int n) = d :: ds := digits ▸ Nat.toList_repr (n := n)
  have solid : isBlank d = false := by
    simp only [isBlank, Bool.or_eq_false_iff, beq_eq_false_iff_ne]
    refine ⟨⟨⟨?_, ?_⟩, ?_⟩, ?_⟩ <;> rintro rfl <;> cases digit
  have read : number (d :: (ds ++ rest)) = some (int n, rest) := by
    rw [← List.cons_append, ← spelled]
    exact number_toString bound ends
  rw [spelled, List.cons_append, value, skipBlanks_cons solid]
  dsimp only
  split
  all_goals first | exact read | cases digit

mutual

/-- A value that is taken whole is read back, if it does not nest too deep. -/
theorem value_written {guide : Guide σ} : (j : Json) → {here : σ} → guide.Takes here j →
    (depth : Nat) → {rest : List Char} → Ends rest →
    value guide (depth + 1) here (written j ++ rest) = (within depth j).map (·, rest)
  | null, _, _, _, _, _ => by rfl
  | bool true, _, _, _, _, _ => by rfl
  | bool false, _, _, _, _, _ => by rfl
  | int _, here, h, depth, _, ends => by
    obtain ⟨n, rfl⟩ := Int.eq_ofNat_of_zero_le h.1
    exact value_number _ depth here (Int.ofNat_le.1 h.2) ends
  | float _, _, h, _, _, _ => h.elim
  | string s, here, _, depth, rest, _ => by
    have read := stringScan_quote s rest
    rw [quote, List.cons_append] at read
    rw [written, quote, List.cons_append, value, skipBlanks_cons rfl]
    show (stringScan _).map _ = _
    rw [read]
    rfl
  | array [], _, _, 0, _, _ => by rfl
  | array [], _, _, _ + 1, _, _ => by rfl
  | array (_ :: _), _, _, 0, _, _ => by
    rw [written, List.cons_append, value_array]
    rfl
  | array (j :: js), here, h, depth + 1, rest, _ => by
    obtain ⟨c, t, begins, solid, opens, _⟩ := exists_cons_written h.1
    have read := listItems_written (show ']' ≠ ',' by decide) rfl rfl
      (fun i k hk rest ends => by
        have each := items_written (j :: js) h depth i k hk ends
        rwa [Nat.zero_add] at each) begins solid opens rest
    rw [written, writtenItems_cons, List.cons_append, List.append_assoc, List.append_assoc,
      List.singleton_append, value_array, if_neg (Nat.succ_ne_zero depth), read, mapM_within, within,
      levels]
    split <;> simp_all
  | object [], _, _, 0, _, _ => by rfl
  | object [], _, _, _ + 1, _, _ => by rfl
  | object (_ :: _), _, _, 0, _, _ => by
    rw [written, List.cons_append, value_object]
    rfl
  | object (m :: ms), here, h, depth + 1, rest, _ => by
    have read := listItems_written (show '\x7d' ≠ ',' by decide) rfl rfl
      (fun i k hk _ ends => members_written (m :: ms) h depth i k hk ends)
      (b := m) (c := '\x22') rfl rfl (by decide) rest
    rw [written, writtenMembers_cons, List.cons_append, List.append_assoc, List.append_assoc,
      List.singleton_append, value_object, if_neg (Nat.succ_ne_zero depth), read, mapM_memberWithin,
      within, levels]
    split <;> simp_all

/-- The same for the items of an array. -/
theorem items_written {guide : Guide σ} : (js : List Json) → {here : σ} → {place : Nat} →
    guide.TakesItems here place js → (depth i : Nat) → (j : Json) → js[i]? = some j →
    {rest : List Char} → Ends rest →
    value guide (depth + 1) (guide.item here (place + i)) (written j ++ rest) =
      (within depth j).map (·, rest)
  | [], _, _, _, _, _, _, found, _, _ => by cases found
  | j :: _, _, _, h, depth, 0, _, found, _, ends => by
    obtain rfl := Option.some.inj found
    exact value_written j h.1 depth ends
  | _ :: js, here, place, h, depth, i + 1, k, found, rest, ends => by
    have later := items_written js h.2 depth i k found ends
    rwa [show place + 1 + i = place + (i + 1) by omega] at later

/-- The same for the members of an object. -/
theorem members_written {guide : Guide σ} : (ms : List (String × Json)) → {here : σ} →
    guide.TakesMembers here ms → (depth i : Nat) → (m : String × Json) → ms[i]? = some m →
    {rest : List Char} → Ends rest →
    memberScan (fun name => (guide.member? here name).map (value guide (depth + 1)))
      (writtenMember m ++ rest) = (memberWithin depth m).map (·, rest)
  | [], _, _, _, _, _, found, _, _ => by cases found
  | (name, j) :: _, _, h, depth, 0, _, found, _, ends => by
    obtain rfl := Option.some.inj found
    obtain ⟨next, needed, taken⟩ := h.1
    refine memberScan_written ?_ (value_written j taken depth ends)
    rw [needed]
    rfl
  | _ :: ms, _, h, depth, i + 1, m, found, _, ends => members_written ms h.2 depth i m found ends

end

/-- The written form of a value that the guide needs whole is read back, unless lists nest more than
127 levels deep in it. -/
theorem parseBy?_print {guide : Guide σ} {start : σ} {j : Json} (h : guide.Takes start j) :
    parseBy? guide start j.print = if levels j < nestingLimit then some j else none := by
  have ends : Ends [] := fun _ hc => by cases hc
  have read := value_written j h 127 ends
  rw [List.append_nil] at read
  have chars : j.print.toList = written j := String.toList_ofList
  rw [parseBy?, chars, nestingLimit, read]
  by_cases deep : levels j ≤ 127
  · rw [within, if_pos deep, if_pos (Nat.lt_succ_of_le deep)]
    rfl
  · rw [within, if_neg deep, if_neg fun less => deep (Nat.le_of_lt_succ less)]
    rfl

end C3Lens.Json
