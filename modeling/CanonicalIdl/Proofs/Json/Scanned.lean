import CanonicalIdl.Proofs.Json.WrittenDoubles

/-!
# Numbers of scanned texts

A property that only numbers can lack is one of all parts of a scanned text if it is one of
every number that digits make.  A number of a text is an integer only if it fits in 64 bits,
and else it is one of binary64.

Main results:

- Theorem `everywhere_ofText`: a property of all numbers is one of all parts of a text.
- Theorem `isBounded_ofText`: no integer of a scanned text is beyond 64 bits.
- Theorem `isRepresentable_ofText`: its floating-point numbers are those of binary64.
-/

namespace CanonicalIdl.Json

open Document

/-- A property that only numbers can lack, and that every number has that digits make. -/
structure HoldsOfScanned (P : Document → Prop) : Prop where
  number : ∀ parts : NumberParts, P parts.document
  other : ∀ d, (∀ n, d ≠ .int n) → (∀ x, d ≠ .double x) → P d

section Scans

variable {P : Document → Prop} (hP : HoldsOfScanned P)

include hP

/-- Whatever its items, an array has the property itself. -/
theorem HoldsOfScanned.array (items : List Document) (ending : Ending) : P (.array items ending) :=
  hP.other _ nofun nofun

theorem HoldsOfScanned.object (members : List (Except Malformation String × Document))
    (ending : Ending) : P (.object members ending) :=
  hP.other _ nofun nofun

/-- A document without parts that is no number has the property all through. -/
theorem everywhere_of_walk {d : Document} (hwalk : d.walk = [d]) (hint : ∀ n, d ≠ .int n)
    (hdouble : ∀ x, d ≠ .double x) : d.Everywhere P := by
  intro part hpart
  rw [hwalk, List.mem_singleton] at hpart
  rw [hpart]
  exact hP.other d hint hdouble

/-- What cannot be read is no number. -/
theorem everywhere_unreadable (whenRead : Malformation) (whenSkipped : Option Malformation) :
    (Document.unreadable whenRead whenSkipped).Everywhere P :=
  everywhere_of_walk hP rfl nofun nofun

theorem everywhere_stopped (whenRead whenSkipped : Malformation) :
    (stopped whenRead whenSkipped).1.Everywhere P :=
  everywhere_unreadable hP _ _

/-- A number that digits make has no parts but itself. -/
theorem everywhere_document (parts : NumberParts) : parts.document.Everywhere P := by
  have hself : parts.document.walk = [parts.document] := by
    unfold NumberParts.document
    split
    · rfl
    · split <;> rfl
  intro part hpart
  rw [hself, List.mem_singleton] at hpart
  rw [hpart]
  exact hP.number parts

/-- A scanned number is one that digits make, or it cannot be read. -/
theorem everywhere_scanNumber (negative : Bool) (text : List Char) :
    (scanNumber negative text).1.Everywhere P := by
  have hdigits : ∀ whole fraction below text,
      (scanExponentDigits negative whole fraction below text).1.Everywhere P := by
    intro whole fraction below text
    unfold scanExponentDigits
    split
    · exact everywhere_stopped hP _ _
    · split
      · exact everywhere_document hP _
      · exact everywhere_stopped hP _ _
  have hexponent : ∀ whole fraction text,
      (scanExponent negative whole fraction text).1.Everywhere P := by
    intro whole fraction text
    unfold scanExponent
    split
    · split
      · split <;> exact hdigits _ _ _ _
      · exact everywhere_document hP _
    · exact everywhere_document hP _
  have hfraction : ∀ whole text, (scanFraction negative whole text).1.Everywhere P := by
    intro whole text
    unfold scanFraction
    split
    · split
      · exact hexponent _ _ _
      · exact everywhere_stopped hP _ _
    · exact hexponent _ _ _
  unfold scanNumber
  split
  · exact everywhere_stopped hP _ _
  · split
    · split
      · exact everywhere_stopped hP _ _
      · exact hfraction _ _
    · split
      · exact hfraction _ _
      · exact everywhere_stopped hP _ _

/-- A scanned word stands for its value, or it cannot be read. -/
theorem everywhere_scanWord {value : Document} (h : value.Everywhere P)
    (letters text : List Char) : (scanWord value letters text).1.Everywhere P := by
  unfold scanWord
  split
  · exact h
  · exact everywhere_stopped hP _ _

/-- A scanned text is a text, or it cannot be read. -/
theorem everywhere_scanStringValue (text : List Char) :
    (scanStringValue text).1.Everywhere P := by
  unfold scanStringValue
  split
  · exact everywhere_of_walk hP rfl nofun nofun
  · exact everywhere_unreadable hP _ _
  · exact everywhere_stopped hP _ _
  · exact everywhere_stopped hP _ _

/-- A container that is nested too deep is replaced by one that cannot be read. -/
theorem everywhere_withinLimit (around : Nat) {container : Document}
    (h : container.Everywhere P) : (withinLimit around container).Everywhere P := by
  unfold withinLimit
  split
  · exact h
  · exact everywhere_unreadable hP _ _

/-! ## One step of a scan -/

section Steps

variable {fuel : Nat}
  (hvalue : ∀ around text, (scanValue around fuel text).1.Everywhere P)
  (hitems : ∀ around first text,
    ∀ item ∈ (scanItems around fuel first text).1, item.Everywhere P)
  (hitem : ∀ around text, ∀ item ∈ (scanItem around fuel text).1, item.Everywhere P)
  (hmembers : ∀ around first text,
    ∀ member ∈ (scanMembers around fuel first text).1, member.2.Everywhere P)
  (hmember : ∀ around text,
    ∀ member ∈ (scanMember around fuel text).1, member.2.Everywhere P)

include hitems hmembers in
/-- One more level of scanning scans values with the property. -/
theorem everywhere_scanValue_succ (around : Nat) (text : List Char) :
    (scanValue around (fuel + 1) text).1.Everywhere P := by
  have hnull : Document.null.Everywhere P := everywhere_of_walk hP rfl nofun nofun
  have hbool : ∀ b, (Document.bool b).Everywhere P := fun b =>
    everywhere_of_walk hP rfl nofun nofun
  rw [scanValue]
  cases skipBlanks text with
  | nil => exact everywhere_stopped hP _ _
  | cons c rest =>
    dsimp only
    split_ifs
    · exact everywhere_scanStringValue hP _
    · exact everywhere_withinLimit hP _ (everywhere_array.mpr ⟨hP.array _ _, hitems _ _ _⟩)
    · exact everywhere_withinLimit hP _ (everywhere_object.mpr ⟨hP.object _ _, hmembers _ _ _⟩)
    · exact everywhere_scanWord hP hnull _ _
    · exact everywhere_scanWord hP (hbool true) _ _
    · exact everywhere_scanWord hP (hbool false) _ _
    · exact everywhere_scanNumber hP _ _
    · exact everywhere_scanNumber hP _ _
    · exact everywhere_stopped hP _ _

omit hP in
include hitem in
/-- So it does items of an array. -/
theorem everywhere_scanItems_succ (around : Nat) (first : Bool) (text : List Char) :
    ∀ item ∈ (scanItems around (fuel + 1) first text).1, item.Everywhere P := by
  rw [scanItems]
  split
  · simp
  · split
    · simp
    · split
      · exact hitem _ _
      · split
        · split
          · simp
          · split
            · simp
            · exact hitem _ _
        · simp

omit hP in
include hvalue hitems in
theorem everywhere_scanItem_succ (around : Nat) (text : List Char) :
    ∀ item ∈ (scanItem around (fuel + 1) text).1, item.Everywhere P := by
  have hfirst := hvalue around text
  rw [scanItem]
  split
  · next item heq =>
    rw [heq] at hfirst
    simpa using hfirst
  · next item rest heq =>
    rw [heq] at hfirst
    exact List.forall_mem_cons.mpr ⟨hfirst, hitems _ _ _⟩

omit hP in
include hvalue hmember in
/-- So it does members of an object. -/
theorem everywhere_scanMembers_succ (around : Nat) (first : Bool) (text : List Char) :
    ∀ member ∈ (scanMembers around (fuel + 1) first text).1, member.2.Everywhere P := by
  rw [scanMembers]
  split
  · simp
  · split
    · simp
    · split
      · split
        · exact hmember _ _
        · simpa using hvalue _ _
      · split
        · split
          · simp
          · split
            · exact hmember _ _
            · split <;> simp
        · simp

include hvalue hmembers in
theorem everywhere_scanMember_succ (around : Nat) (text : List Char) :
    ∀ member ∈ (scanMember around (fuel + 1) text).1, member.2.Everywhere P := by
  rw [scanMember]
  split
  · simpa using everywhere_unreadable hP _ _
  · split
    · next rest hcolon =>
      have hfirst := hvalue around rest
      split
      · next item heq =>
        rw [heq] at hfirst
        simpa using hfirst
      · next item rest heq =>
        rw [heq] at hfirst
        exact List.forall_mem_cons.mpr ⟨hfirst, hmembers _ _ _⟩
    · simpa using everywhere_unreadable hP _ _
    · simpa using everywhere_unreadable hP _ _

end Steps

/-! ## Whole scans -/

/-- At any number of levels, scanned values have the property all through. -/
theorem everywhere_scanValue (around fuel : Nat) (text : List Char) :
    (scanValue around fuel text).1.Everywhere P := by
  suffices h : (∀ around text, (scanValue around fuel text).1.Everywhere P) ∧
      (∀ around first text,
        ∀ item ∈ (scanItems around fuel first text).1, item.Everywhere P) ∧
      (∀ around text, ∀ item ∈ (scanItem around fuel text).1, item.Everywhere P) ∧
      (∀ around first text,
        ∀ member ∈ (scanMembers around fuel first text).1, member.2.Everywhere P) ∧
      (∀ around text, ∀ member ∈ (scanMember around fuel text).1, member.2.Everywhere P) from
    h.1 around text
  induction fuel with
  | zero =>
    refine ⟨fun _ _ => everywhere_stopped hP _ _, ?_, ?_, ?_, ?_⟩ <;>
      simp [scanItems, scanItem, scanMembers, scanMember]
  | succ fuel ih =>
    obtain ⟨hvalue, hitems, hitem, hmembers, hmember⟩ := ih
    exact ⟨everywhere_scanValue_succ hP hitems hmembers, everywhere_scanItems_succ hitem,
      everywhere_scanItem_succ hvalue hitems, everywhere_scanMembers_succ hvalue hmember,
      everywhere_scanMember_succ hP hvalue hmembers⟩

/-- A property of all numbers is one of all parts of a scanned text. -/
theorem everywhere_ofText (text : String) : (Source.ofText text).document.Everywhere P := by
  rw [Source.ofText]
  exact everywhere_scanValue hP _ _ _

end Scans

/-- A number of a text is an integer only if it fits in 64 bits. -/
theorem holdsOfScanned_isBounded : HoldsOfScanned IsBounded where
  number parts := by
    unfold NumberParts.document
    split
    · next n hint =>
      have hsize : UInt64.size = 2 ^ 64 := rfl
      simp only [NumberParts.int?, hsize] at hint
      split at hint
      · split at hint
        · split at hint
          · next hrange =>
            simp only [Bool.and_eq_true, decide_eq_true_eq] at hrange
            obtain rfl := Option.some.inj hint
            exact ⟨by omega, by omega⟩
          · cases hint
        · split at hint
          · next hlt =>
            obtain rfl := Option.some.inj hint
            exact ⟨by omega, by omega⟩
          · cases hint
      · cases hint
    · split <;> trivial
  other d hint _ := by
    cases d with
    | int n => exact absurd rfl (hint n)
    | null | bool _ | double _ | string _ | array _ _ | object _ _ | unreadable _ _ => trivial

/-- No integer of a scanned text is beyond 64 bits. -/
theorem isBounded_ofText (text : String) :
    (Source.ofText text).document.Everywhere IsBounded :=
  everywhere_ofText holdsOfScanned_isBounded text

/-- A floating-point number of a text is one of binary64. -/
theorem holdsOfScanned_isRepresentable : HoldsOfScanned IsRepresentable where
  number parts := by
    have hbounded := holdsOfScanned_isBounded.number parts
    unfold NumberParts.document at hbounded ⊢
    split
    · next n hint =>
      rw [hint] at hbounded
      exact hbounded
    · split
      · next x hdouble =>
        obtain ⟨y, hy, rfl⟩ := Option.map_eq_some_iff.mp hdouble
        exact Magnitude.isBinary64_of_ofDecimal? hy
      · trivial
  other d hint hdouble := by
    cases d with
    | int n => exact absurd rfl (hint n)
    | double x => exact absurd rfl (hdouble x)
    | null | bool _ | string _ | array _ _ | object _ _ | unreadable _ _ => trivial

/-- Every floating-point number of a scanned text is one of binary64, and no integer is beyond
64 bits. -/
theorem isRepresentable_ofText (text : String) :
    (Source.ofText text).document.Everywhere IsRepresentable :=
  everywhere_ofText holdsOfScanned_isRepresentable text

end CanonicalIdl.Json
