import CanonicalIdl.Json.Printer
import CanonicalIdl.Proofs.Json.Nesting
import CanonicalIdl.Proofs.Json.WrittenDoubles

/-!
# Scanning what was written

A value that was written on several lines is scanned into itself but for its floating-point
numbers, which are read anew, and for containers that nest too deep, if it holds no integer
beyond 64 bits.  The scan of each part is stated with the text behind the part, and for every
fuel that is enough for its length.

Main results:

- Theorem `stringUnits_stringText`: an escaped string is scanned unit by unit.
- Theorem `ofText_pretty_within`: a written value is scanned into the value with other
  floating-point numbers, up to the limit of its nesting.
- Theorem `ofText_pretty`: without floating-point numbers, and within the limit, it is scanned into
  itself.
-/

namespace CanonicalIdl.Json

open Text

/-! ## Strings -/

/-- The unit that a written character is scanned into. -/
def unitOf (c : Char) : StringUnit :=
  if c.toNat < 0x20 ∧ c ≠ '\n' ∧ c ≠ '\r' ∧ c ≠ '\t' ∧ c.toNat ≠ 8 ∧ c.toNat ≠ 12 then
    .code c.toNat
  else .char c

theorem hexCode?_control {n : Nat} (h : n < 0x20) :
    hexCode? '0' '0' (Nat.digitChar (n / 16)) (Nat.digitChar (n % 16)) = some n := by
  have hall : ∀ n < 0x20,
      hexCode? '0' '0' (Nat.digitChar (n / 16)) (Nat.digitChar (n % 16)) = some n := by decide
  exact hall n h

/-- A written character is scanned into one unit. -/
theorem stringUnits_escapedChar (c : Char) (rest : List Char) :
    stringUnits (escapedChar c ++ rest) =
      (unitOf c :: (stringUnits rest).1, (stringUnits rest).2) := by
  by_cases hquote : c = '"'
  · subst hquote; rfl
  by_cases hslash : c = '\\'
  · subst hslash; rfl
  by_cases hline : c = '\n'
  · subst hline; rfl
  by_cases hreturn : c = '\r'
  · subst hreturn; rfl
  by_cases htab : c = '\t'
  · subst htab; rfl
  by_cases hback : c.toNat = 8
  · obtain rfl : c = Char.ofNat 8 := by rw [← hback, Char.ofNat_toNat]
    rfl
  by_cases hfeed : c.toNat = 12
  · obtain rfl : c = Char.ofNat 12 := by rw [← hfeed, Char.ofNat_toNat]
    rfl
  by_cases hcontrol : c.toNat < 0x20
  · have htext : escapedChar c =
        ['\\', 'u', '0', '0', Nat.digitChar (c.toNat / 16), Nat.digitChar (c.toNat % 16)] := by
      simp [escapedChar, hquote, hslash, hline, hreturn, htab, hback, hfeed, hcontrol]
    have hunit : unitOf c = .code c.toNat := by
      simp [unitOf, hcontrol, hline, hreturn, htab, hback, hfeed]
    have hcode := hexCode?_control hcontrol
    rw [htext, hunit]
    simp only [List.cons_append, List.nil_append]
    rw [stringUnits]
    simp [hcode]
  · rw [escapedChar_of_plain hquote hslash (by omega)]
    have hunit : unitOf c = .char c := by simp [unitOf, hcontrol]
    rw [hunit, List.singleton_append, stringUnits.eq_def]
    simp [hquote, hslash, hcontrol]

/-- A written text is scanned up to the mark that closes it. -/
theorem stringUnits_stringText (chars rest : List Char) :
    stringUnits (chars.flatMap escapedChar ++ '"' :: rest) = (chars.map unitOf, .ok rest) := by
  induction chars with
  | nil =>
    rw [List.flatMap_nil, List.nil_append, stringUnits.eq_def]
    simp
  | cons c chars ih =>
    rw [List.flatMap_cons, List.append_assoc, stringUnits_escapedChar, ih]
    rfl

/-- The units of characters stand for these characters. -/
theorem unitChars_map_unitOf (chars : List Char) :
    unitChars none (chars.map unitOf) = .ok chars := by
  induction chars with
  | nil => rfl
  | cons c chars ih =>
    rw [List.map_cons]
    by_cases hcode : unitOf c = .code c.toNat
    · have hcontrol : c.toNat < 0x20 := by
        unfold unitOf at hcode
        split at hcode
        · next h => exact h.1
        · cases hcode
      have hlow : isLowSurrogate c.toNat = false := by simp [isLowSurrogate]; omega
      have hhigh : isHighSurrogate c.toNat = false := by simp [isHighSurrogate]; omega
      rw [hcode, unitChars.eq_def]
      simp [hlow, hhigh, ih]
    · have hchar : unitOf c = .char c := by
        unfold unitOf at hcode ⊢
        split at hcode
        · exact absurd rfl hcode
        · next h => rw [if_neg h]
      rw [hchar, unitChars, ih]

/-- A written string is scanned into itself. -/
theorem scanString_stringText (s : String) (rest : List Char) :
    scanString (s.toList.flatMap escapedChar ++ '"' :: rest) = (.ok s, .ok rest) := by
  rw [scanString, stringUnits_stringText]
  simp [unitChars_map_unitOf, Except.map]

/-! ## Values -/

theorem skipBlanks_cons {c : Char} (h : isJsonBlank c = false) (rest : List Char) :
    skipBlanks (c :: rest) = c :: rest := by
  rw [skipBlanks, List.dropWhile_cons_of_neg (by simp [h])]

/-- Line breaks are blanks. -/
theorem skipBlanks_lineBreak (level : Nat) (text : List Char) :
    skipBlanks (lineBreak level ++ text) = skipBlanks text := by
  have hall : ∀ c ∈ lineBreak level, isJsonBlank c = true := by
    intro c hc
    rcases List.mem_cons.mp hc with rfl | hc
    · rfl
    · obtain ⟨-, rfl⟩ := List.mem_replicate.mp hc
      rfl
  rw [skipBlanks, List.dropWhile_append_of_pos hall]
  rfl

/-- A digit begins no other value than a number. -/
theorem not_blank_of_isDigit {c : Char} (h : c.isDigit = true) :
    isJsonBlank c = false ∧ c ≠ ']' ∧ c ≠ '"' ∧ c ≠ '[' ∧ c ≠ '\x7b' ∧ c ≠ 'n' ∧ c ≠ 't' ∧
      c ≠ 'f' ∧ c ≠ '-' := by
  have hne : ∀ d : Char, d.isDigit = false → c ≠ d := by
    rintro d hd rfl
    rw [h] at hd
    cases hd
  refine ⟨?_, hne _ rfl, hne _ rfl, hne _ rfl, hne _ rfl, hne _ rfl, hne _ rfl, hne _ rfl,
    hne _ rfl⟩
  have hblank : c ≠ ' ' ∧ c ≠ '\n' ∧ c ≠ '\t' ∧ c ≠ '\r' :=
    ⟨hne _ rfl, hne _ rfl, hne _ rfl, hne _ rfl⟩
  simp [isJsonBlank, hblank]

/-- The text of parts behind their sign. -/
def NumberParts.signedText (parts : NumberParts) : List Char :=
  (if parts.negative then ['-'] else []) ++ parts.text

namespace NumberParts.IsWritten

variable {parts : NumberParts} (h : parts.IsWritten)

include h

/-- A written number begins with a digit. -/
theorem exists_text : ∃ c rest, parts.text = c :: rest ∧ c.isDigit = true := by
  have hwhole := h.whole
  rw [text]
  rcases h.head with hzero | ⟨c, rest, hcons, -⟩
  · exact ⟨'0', _, by rw [hzero]; rfl, rfl⟩
  · exact ⟨c, _, by rw [hcons]; rfl, hwhole c (hcons ▸ List.mem_cons_self)⟩

/-- The first character of a written number. -/
theorem exists_signedText :
    ∃ c rest, parts.signedText = c :: rest ∧ (c = '-' ∨ c.isDigit = true) := by
  obtain ⟨c, rest, htext, hdigit⟩ := h.exists_text
  rw [signedText, htext]
  split
  · exact ⟨'-', _, rfl, .inl rfl⟩
  · exact ⟨c, rest, rfl, .inr hdigit⟩

/-- A written number is scanned into its parts. -/
theorem scanValue_signedText (around fuel : Nat) {rest : List Char} (hrest : EndsToken rest) :
    scanValue around (fuel + 1) (parts.signedText ++ rest) = (parts.document, some rest) := by
  have hnumber := scanNumber_text hrest h
  obtain ⟨c, digits, htext, hdigit⟩ := h.exists_text
  rw [signedText]
  cases hsign : parts.negative with
  | true =>
    rw [hsign] at hnumber
    rw [if_pos rfl, List.append_assoc, List.singleton_append, scanValue, skipBlanks_cons rfl]
    simpa using hnumber
  | false =>
    obtain ⟨hblank, -, h1, h2, h3, h4, h5, h6, h7⟩ := not_blank_of_isDigit hdigit
    rw [hsign, htext] at hnumber
    rw [if_neg (by decide), List.nil_append, htext, List.cons_append, scanValue,
      skipBlanks_cons hblank]
    simpa [h1, h2, h3, h4, h5, h6, h7, hdigit] using hnumber

end NumberParts.IsWritten

/-- The parts that an integer is written with. -/
def integerParts (n : Int) : NumberParts := ⟨decide (n < 0), decimal n.natAbs, [], none⟩

/-- An integer is written with its sign and its digits. -/
theorem signedText_integerParts (n : Int) : (integerParts n).signedText = signedDecimal n := by
  simp [integerParts, NumberParts.signedText, NumberParts.text, NumberParts.fractionText,
    NumberParts.exponentText, signedDecimal]

theorem isWritten_integerParts (n : Int) : (integerParts n).IsWritten :=
  ⟨fun _ hc => isDigit_of_mem_decimal hc, head_decimal _, nofun⟩

/-- So is a floating-point number, with whatever marks its digits need. -/
theorem signedText_writtenParts {x : Double} (hx : x.IsBinary64) :
    (writtenParts x.negative x.magnitude).signedText = x.text := by
  rw [NumberParts.signedText, negative_writtenParts _ hx, Double.text_eq hx]

/-- The first character of a written number. -/
theorem signedDecimal_eq_cons (n : Int) :
    ∃ c rest, signedDecimal n = c :: rest ∧ (c = '-' ∨ c.isDigit = true) :=
  signedText_integerParts n ▸ (isWritten_integerParts n).exists_signedText

theorem Double.text_eq_cons {x : Double} (hx : x.IsBinary64) :
    ∃ c rest, x.text = c :: rest ∧ (c = '-' ∨ c.isDigit = true) :=
  signedText_writtenParts hx ▸ (isWritten_writtenParts _ hx).exists_signedText

/-- An integer of 64 bits is scanned as itself. -/
theorem scanValue_signedDecimal {n : Int} (h : (Document.int n).IsBounded) (around fuel : Nat)
    {rest : List Char} (hrest : EndsToken rest) :
    scanValue around (fuel + 1) (signedDecimal n ++ rest) = (.int n, some rest) := by
  rw [← signedText_integerParts, (isWritten_integerParts n).scanValue_signedText _ _ hrest,
    integerParts, document_decimal h]

/-- A floating-point number is scanned as the one that its digits are read as. -/
theorem Double.scanValue_text {x : Double} (hx : x.IsBinary64) (around fuel : Nat)
    {rest : List Char} (hrest : EndsToken rest) :
    scanValue around (fuel + 1) (x.text ++ rest) = (.double x.reread, some rest) := by
  rw [← signedText_writtenParts hx, (isWritten_writtenParts _ hx).scanValue_signedText _ _ hrest,
    Double.document_writtenParts hx]

/-- Neither a sign nor a digit ends an array. -/
theorem not_blank_of_number {c : Char} (h : c = '-' ∨ c.isDigit = true) :
    isJsonBlank c = false ∧ c ≠ ']' := by
  rcases h with rfl | h
  · exact ⟨rfl, by decide⟩
  · exact ⟨(not_blank_of_isDigit h).1, (not_blank_of_isDigit h).2.1⟩

/-- A written value starts with a character that neither is a blank nor ends a list. -/
theorem prettyText_eq_cons (level : Nat) (value : Json)
    (h : (Document.ofJson value).Everywhere Document.IsRepresentable) :
    ∃ c rest, prettyText level value = c :: rest ∧ isJsonBlank c = false ∧ c ≠ ']' := by
  cases value with
  | null => exact ⟨_, _, rfl, rfl, by decide⟩
  | bool b => cases b <;> exact ⟨_, _, rfl, rfl, by decide⟩
  | int n =>
    obtain ⟨c, rest, hn, hc⟩ := signedDecimal_eq_cons n
    exact ⟨c, rest, by rw [prettyText, hn], not_blank_of_number hc⟩
  | double x =>
    obtain ⟨c, rest, hx, hc⟩ := Double.text_eq_cons (x := x) h.self
    exact ⟨c, rest, by rw [prettyText, hx], not_blank_of_number hc⟩
  | string s => exact ⟨_, _, rfl, rfl, by decide⟩
  | array items => cases items <;> exact ⟨_, _, rfl, rfl, by decide⟩
  | object members => cases members <;> exact ⟨_, _, rfl, rfl, by decide⟩

/-- A text is scanned as itself. -/
theorem scanValue_stringText (s : String) (around fuel : Nat) (rest : List Char) :
    scanValue around (fuel + 1) (stringText s ++ rest) = (.string s, some rest) := by
  have hstring := scanString_stringText s rest
  rw [stringText, List.append_assoc, List.append_assoc, List.singleton_append,
    List.singleton_append, scanValue, skipBlanks_cons rfl]
  simp [scanStringValue, hstring]

/-- An item is scanned as a value, and the items behind it after it. -/
theorem scanItem_of_scanValue {around fuel : Nat} {text rest after : List Char} {item : Document}
    {items : List Document} {ending : Ending}
    (hitem : scanValue around fuel text = (item, some rest))
    (hitems : scanItems around fuel false rest = (items, ending, some after)) :
    scanItem around (fuel + 1) text = (item :: items, ending, some after) := by
  rw [scanItem, hitem]
  simp [hitems]

/-- A member is scanned as its key and a value, and the members behind it after it. -/
theorem scanMember_of_scanValue {around fuel : Nat} (key : String) {text rest after : List Char}
    {value : Document} {members : List (Except Malformation String × Document)} {ending : Ending}
    (hvalue : scanValue around fuel text = (value, some rest))
    (hmembers : scanMembers around fuel false rest = (members, ending, some after)) :
    scanMember around (fuel + 1) (key.toList.flatMap escapedChar ++ '"' :: ':' :: text) =
      ((.ok key, value) :: members, ending, some after) := by
  rw [scanMember, scanString_stringText]
  simp only [skipBlanks_cons (c := ':') rfl, hvalue, hmembers]

/-- A space in front of a value is skipped. -/
theorem scanValue_space (around fuel : Nat) (text : List Char) :
    scanValue around fuel (' ' :: text) = scanValue around fuel text := by
  cases fuel with
  | zero => rfl
  | succ fuel => rw [scanValue, scanValue]; rfl

/-! ### Steps through a container -/

section Steps

variable (around fuel level : Nat)

/-- A line break in front of `]` is skipped, and the array ends. -/
theorem scanItems_end (first : Bool) (rest : List Char) :
    scanItems around (fuel + 1) first (lineBreak level ++ ']' :: rest) =
      ([], .closed, some rest) := by
  rw [scanItems, skipBlanks_lineBreak, skipBlanks_cons rfl]
  rfl

/-- So it is with objects. -/
theorem scanMembers_end (first : Bool) (rest : List Char) :
    scanMembers around (fuel + 1) first (lineBreak level ++ '\x7d' :: rest) =
      ([], .closed, some rest) := by
  rw [scanMembers, skipBlanks_lineBreak, skipBlanks_cons rfl]
  rfl

/-- The first item stands behind a line break. -/
theorem scanItems_first {c : Char} {text : List Char} (hblank : isJsonBlank c = false)
    (hend : c ≠ ']') :
    scanItems around (fuel + 1) true (lineBreak level ++ c :: text) =
      scanItem around fuel (c :: text) := by
  rw [scanItems, skipBlanks_lineBreak, skipBlanks_cons hblank]
  simp [hend]

/-- Each other item stands behind a comma and a line break. -/
theorem scanItems_next {c : Char} {text : List Char} (hblank : isJsonBlank c = false)
    (hend : c ≠ ']') :
    scanItems around (fuel + 1) false (',' :: (lineBreak level ++ c :: text)) =
      scanItem around fuel (c :: text) := by
  rw [scanItems, skipBlanks_cons rfl]
  simp [skipBlanks_lineBreak, skipBlanks_cons hblank, hend]

/-- The first member stands behind a line break. -/
theorem scanMembers_first (text : List Char) :
    scanMembers around (fuel + 1) true (lineBreak level ++ '"' :: text) =
      scanMember around fuel text := by
  rw [scanMembers, skipBlanks_lineBreak, skipBlanks_cons rfl]
  rfl

/-- Each other member stands behind a comma and a line break. -/
theorem scanMembers_next (text : List Char) :
    scanMembers around (fuel + 1) false (',' :: (lineBreak level ++ '"' :: text)) =
      scanMember around fuel text := by
  rw [scanMembers, skipBlanks_cons rfl]
  simp [skipBlanks_lineBreak, skipBlanks_cons (c := '"') rfl]

end Steps

theorem endsToken_prettyItems (level outer : Nat) (items : List Json) (rest : List Char) :
    EndsToken (prettyItems level items ++ (lineBreak outer ++ ']' :: rest)) := by
  cases items with
  | nil => exact fun c hc => .inr (Option.some.inj hc).symm
  | cons item items => exact fun c hc => .inl (Option.some.inj hc).symm

theorem endsToken_prettyMembers (level outer : Nat) (members : List (String × Json))
    (rest : List Char) :
    EndsToken (prettyMembers level members ++ (lineBreak outer ++ '\x7d' :: rest)) := by
  cases members with
  | nil => exact fun c hc => .inr (Option.some.inj hc).symm
  | cons member members => exact fun c hc => .inl (Option.some.inj hc).symm

/-! ### Whole values -/

/-- A container is followed as far as there is room for it and for what is in it. -/
theorem withinLimit_eq_ofJsonWithin {around : Nat} {value : Json} {container : Document}
    (hinside : Document.ofJsonWithin (nestingLimit - (around + 1) + 1) value = container)
    (hbeyond : Document.ofJsonWithin 0 value = .unreadable .tooDeep none) :
    withinLimit around container = Document.ofJsonWithin (nestingLimit - around) value := by
  unfold withinLimit
  split
  · next h => rw [← hinside, show nestingLimit - (around + 1) + 1 = nestingLimit - around by omega]
  · next h =>
    rw [Nat.sub_eq_zero_of_le (Nat.le_of_not_lt h), hbeyond, ← hinside,
      Document.skip_ofJsonWithin]

theorem withinLimit_array (around : Nat) (items : List Json) :
    withinLimit around
        (.array (Document.ofItemsWithin (nestingLimit - (around + 1)) items) .closed) =
      Document.ofJsonWithin (nestingLimit - around) (.array items) :=
  withinLimit_eq_ofJsonWithin (by rw [Document.ofJsonWithin]) (by rw [Document.ofJsonWithin])

theorem withinLimit_object (around : Nat) (members : List (String × Json)) :
    withinLimit around
        (.object (Document.ofMembersWithin (nestingLimit - (around + 1)) members) .closed) =
      Document.ofJsonWithin (nestingLimit - around) (.object members) :=
  withinLimit_eq_ofJsonWithin (by rw [Document.ofJsonWithin]) (by rw [Document.ofJsonWithin])

mutual

/-- A written value is scanned up to its end. -/
theorem scanValue_prettyText : (value : Json) →
    ∀ (around level : Nat) {fuel : Nat} {rest : List Char},
    (Document.ofJson value).Everywhere Document.IsRepresentable →
    3 * (prettyText level value).length ≤ fuel → EndsToken rest →
    scanValue around fuel (prettyText level value ++ rest) =
      (Document.ofJsonWithin (nestingLimit - around) (value.mapDoubles Double.reread), some rest)
  | .null, around, level, fuel, rest, _, hfuel, _ => by
    obtain ⟨fuel, rfl⟩ : ∃ k, fuel = k + 1 := ⟨fuel - 1, by simp [prettyText] at hfuel; omega⟩
    rw [scanValue]
    rfl
  | .bool b, around, level, fuel, rest, _, hfuel, _ => by
    obtain ⟨fuel, rfl⟩ : ∃ k, fuel = k + 1 :=
      ⟨fuel - 1, by cases b <;> simp [prettyText] at hfuel <;> omega⟩
    cases b <;> rw [scanValue] <;> rfl
  | .int n, around, level, fuel, rest, hexact, hfuel, hrest => by
    obtain ⟨c, tail, hn, -⟩ := signedDecimal_eq_cons n
    obtain ⟨fuel, rfl⟩ : ∃ k, fuel = k + 1 :=
      ⟨fuel - 1, by simp [prettyText, hn] at hfuel; omega⟩
    exact scanValue_signedDecimal hexact.self around fuel hrest
  | .double x, around, level, fuel, rest, hexact, hfuel, hrest => by
    obtain ⟨c, tail, hx, -⟩ := Double.text_eq_cons (x := x) hexact.self
    obtain ⟨fuel, rfl⟩ : ∃ k, fuel = k + 1 :=
      ⟨fuel - 1, by simp [prettyText, hx] at hfuel; omega⟩
    exact Double.scanValue_text hexact.self around fuel hrest
  | .string s, around, level, fuel, rest, _, hfuel, _ => by
    obtain ⟨fuel, rfl⟩ : ∃ k, fuel = k + 1 :=
      ⟨fuel - 1, by simp [prettyText, stringText] at hfuel; omega⟩
    exact scanValue_stringText s around fuel rest
  | .array [], around, level, fuel, rest, _, hfuel, _ => by
    obtain ⟨fuel, rfl⟩ : ∃ k, fuel = k + 2 := ⟨fuel - 2, by simp [prettyText] at hfuel; omega⟩
    rw [prettyText, List.cons_append, List.singleton_append, scanValue, skipBlanks_cons rfl,
      mapDoubles, mapDoublesItems, ← withinLimit_array]
    simp [scanItems, skipBlanks_cons (c := ']') rfl, Document.ofItemsWithin]
  | .object [], around, level, fuel, rest, _, hfuel, _ => by
    obtain ⟨fuel, rfl⟩ : ∃ k, fuel = k + 2 := ⟨fuel - 2, by simp [prettyText] at hfuel; omega⟩
    rw [prettyText, List.cons_append, List.singleton_append, scanValue, skipBlanks_cons rfl,
      mapDoubles, mapDoublesMembers, ← withinLimit_object]
    simp [scanMembers, skipBlanks_cons (c := '\x7d') rfl, Document.ofMembersWithin]
  | .array (item :: items), around, level, fuel, rest, hexact, hfuel, _ => by
    obtain ⟨hitem, hitems⟩ :=
      List.forall_mem_cons.mp (Document.everywhere_ofJson_array.mp hexact).2
    simp only [prettyText, List.length_append, List.length_cons, List.length_nil] at hfuel
    obtain ⟨fuel, rfl⟩ : ∃ k, fuel = k + 3 := ⟨fuel - 3, by omega⟩
    obtain ⟨c, tail, htext, hblank, hend⟩ := prettyText_eq_cons (level + 1) item hitem
    have hvalue := scanValue_prettyText item (around + 1) (level + 1) hitem
      (show _ ≤ fuel by omega) (endsToken_prettyItems (level + 1) level items rest)
    have hrest := @scanItems_prettyItems items (around + 1) (level + 1) level fuel rest hitems
      (by simp only [List.length_append, List.length_cons, List.length_nil]; omega)
    have hscan := scanItem_of_scanValue hvalue hrest
    rw [htext, List.cons_append] at hscan
    have hfirst := (scanItems_first (around + 1) (fuel + 1) (level + 1) hblank hend).trans hscan
    simp only [prettyText, htext, List.append_assoc, List.cons_append]
    rw [scanValue, skipBlanks_cons rfl, mapDoubles, mapDoublesItems, ← withinLimit_array]
    simp [hfirst, Document.ofItemsWithin]
  | .object ((key, value) :: members), around, level, fuel, rest, hexact, hfuel, _ => by
    obtain ⟨hitem, hitems⟩ :=
      List.forall_mem_cons.mp (Document.everywhere_ofJson_object.mp hexact).2
    simp only [prettyText, stringText, List.length_append, List.length_cons,
      List.length_nil] at hfuel
    obtain ⟨fuel, rfl⟩ : ∃ k, fuel = k + 3 := ⟨fuel - 3, by omega⟩
    have hvalue := scanValue_prettyText value (around + 1) (level + 1) hitem
      (show _ ≤ fuel by omega) (endsToken_prettyMembers (level + 1) level members rest)
    have hrest := @scanMembers_prettyMembers members (around + 1) (level + 1) level fuel rest hitems
      (by simp only [List.length_append, List.length_cons, List.length_nil]; omega)
    rw [← scanValue_space] at hvalue
    have hscan := scanMember_of_scanValue key hvalue hrest
    have hfirst := scanMembers_first (around + 1) (fuel + 1) (level + 1)
      (key.toList.flatMap escapedChar ++ '"' :: ':' :: ' ' ::
        (prettyText (level + 1) value ++
          (prettyMembers (level + 1) members ++ (lineBreak level ++ '\x7d' :: rest))))
    rw [hscan] at hfirst
    simp only [prettyText, stringText, List.append_assoc, List.cons_append, List.nil_append]
    rw [scanValue, skipBlanks_cons rfl, mapDoubles, mapDoublesMembers, ← withinLimit_object]
    simp [hfirst, Document.ofMembersWithin]

/-- Further items of a written array are scanned up to its end. -/
theorem scanItems_prettyItems : (items : List Json) →
    ∀ (around level outer : Nat) {fuel : Nat} {rest : List Char},
    (∀ item ∈ items, (Document.ofJson item).Everywhere Document.IsRepresentable) →
    3 * (prettyItems level items ++ (lineBreak outer ++ [']'])).length ≤ fuel →
    scanItems around fuel false (prettyItems level items ++ (lineBreak outer ++ ']' :: rest)) =
      (Document.ofItemsWithin (nestingLimit - around) (mapDoublesItems Double.reread items),
        .closed, some rest)
  | [], around, level, outer, fuel, rest, _, hfuel => by
    obtain ⟨fuel, rfl⟩ : ∃ k, fuel = k + 1 :=
      ⟨fuel - 1, by simp [prettyItems] at hfuel; omega⟩
    rw [prettyItems, List.nil_append, scanItems_end, mapDoublesItems,
      Document.ofItemsWithin]
  | item :: items, around, level, outer, fuel, rest, hexact, hfuel => by
    obtain ⟨hitem, hitems⟩ := List.forall_mem_cons.mp hexact
    simp only [prettyItems, List.length_append, List.length_cons, List.length_nil] at hfuel
    obtain ⟨fuel, rfl⟩ : ∃ k, fuel = k + 2 := ⟨fuel - 2, by omega⟩
    obtain ⟨c, tail, htext, hblank, hend⟩ := prettyText_eq_cons level item hitem
    have hvalue := scanValue_prettyText item around level hitem
      (show _ ≤ fuel by omega) (endsToken_prettyItems level outer items rest)
    have hrest := @scanItems_prettyItems items around level outer fuel rest hitems
      (by simp only [List.length_append, List.length_cons, List.length_nil]; omega)
    have hscan := scanItem_of_scanValue hvalue hrest
    rw [htext, List.cons_append] at hscan
    have hnext := (scanItems_next around (fuel + 1) level hblank hend).trans hscan
    simp only [prettyItems, htext, List.append_assoc, List.cons_append]
    exact hnext

/-- Further members of a written object are scanned up to its end. -/
theorem scanMembers_prettyMembers : (members : List (String × Json)) →
    ∀ (around level outer : Nat) {fuel : Nat} {rest : List Char},
    (∀ member ∈ members, (Document.ofJson member.2).Everywhere Document.IsRepresentable) →
    3 * (prettyMembers level members ++ (lineBreak outer ++ ['\x7d'])).length ≤ fuel →
    scanMembers around fuel false
        (prettyMembers level members ++ (lineBreak outer ++ '\x7d' :: rest)) =
      (Document.ofMembersWithin (nestingLimit - around) (mapDoublesMembers Double.reread members),
        .closed, some rest)
  | [], around, level, outer, fuel, rest, _, hfuel => by
    obtain ⟨fuel, rfl⟩ : ∃ k, fuel = k + 1 :=
      ⟨fuel - 1, by simp [prettyMembers] at hfuel; omega⟩
    rw [prettyMembers, List.nil_append, scanMembers_end, mapDoublesMembers,
      Document.ofMembersWithin]
  | (key, value) :: members, around, level, outer, fuel, rest, hexact, hfuel => by
    obtain ⟨hitem, hitems⟩ := List.forall_mem_cons.mp hexact
    simp only [prettyMembers, stringText, List.length_append, List.length_cons,
      List.length_nil] at hfuel
    obtain ⟨fuel, rfl⟩ : ∃ k, fuel = k + 2 := ⟨fuel - 2, by omega⟩
    have hvalue := scanValue_prettyText value around level hitem
      (show _ ≤ fuel by omega) (endsToken_prettyMembers level outer members rest)
    have hrest := @scanMembers_prettyMembers members around level outer fuel rest hitems
      (by simp only [List.length_append, List.length_cons, List.length_nil]; omega)
    rw [← scanValue_space] at hvalue
    have hscan := scanMember_of_scanValue key hvalue hrest
    have hnext := scanMembers_next around (fuel + 1) level
      (key.toList.flatMap escapedChar ++ '"' :: ':' :: ' ' ::
        (prettyText level value ++
          (prettyMembers level members ++ (lineBreak outer ++ '\x7d' :: rest))))
    rw [hscan] at hnext
    simp only [prettyMembers, stringText, List.append_assoc, List.cons_append, List.nil_append]
    exact hnext

end

/-- A written value is scanned into the value with its floating-point numbers read anew, up to
the limit of its nesting and with nothing behind it. -/
theorem ofText_pretty_within {value : Json}
    (h : (Document.ofJson value).Everywhere Document.IsRepresentable) :
    Source.ofText value.pretty =
      ⟨Document.ofJsonWithin nestingLimit (value.mapDoubles Double.reread), false⟩ := by
  have hscan := scanValue_prettyText value 0 0 h
    (show _ ≤ 3 * (prettyText 0 value).length + 3 by omega) (show EndsToken [] from nofun)
  rw [List.append_nil] at hscan
  rw [Source.ofText, pretty, String.toList_ofList]
  simp only [hscan]
  rfl

/-- A written value without floating-point numbers is scanned into itself, with nothing behind
it. -/
theorem ofText_pretty {value : Json} (hexact : (Document.ofJson value).Everywhere Document.IsExact)
    (hnest : nesting value ≤ nestingLimit) :
    Source.ofText value.pretty = ⟨Document.ofJson value, false⟩ := by
  have hrepresentable : (Document.ofJson value).Everywhere Document.IsRepresentable :=
    fun part hpart => (hexact part hpart).isRepresentable
  rw [ofText_pretty_within hrepresentable,
    mapDoubles_of_isNotDouble _ _ fun part hpart => (hexact part hpart).1,
    Document.ofJsonWithin_of_nesting_le value hnest]

/-! ## Readers of texts -/

/-- Whatever is read from a text is read from the document in it. -/
theorem read_of_parseWith {α : Type} {read : Document → Except Fault α} {text : String} {a : α}
    (h : parseWith read text = .ok a) : read (Source.ofText text).document = .ok a := by
  simp only [parseWith] at h
  split at h
  · cases h
  · next found hfound =>
    split at h
    · cases h
    · rw [hfound, Except.ok.inj h]

/-- A document with nothing behind it is all that is read. -/
theorem parseWith_of_read {α : Type} {read : Document → Except Fault α} {text : String}
    {d : Document} {a : α} (hsource : Source.ofText text = ⟨d, false⟩) (h : read d = .ok a) :
    parseWith read text = .ok a := by
  simp only [parseWith, hsource, h]
  rfl

end CanonicalIdl.Json
