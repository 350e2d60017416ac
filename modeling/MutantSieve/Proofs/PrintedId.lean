import MutantSieve.Mutation
import MutantSieve.Proofs.Descriptor
import MutantSieve.Proofs.Json.Numeral
import MutantSieve.Proofs.Mutator

/-!
# Printed ids

The printed id of a mutation shows where each of its parts ends. A class name ends at the first
colon and a method name at the first parenthesis; a descriptor ends where its grammar says, whatever
its class names hold; an index ends at the first blank, and the mutator is all the rest. So no two
mutations have the same printed id.
-/

set_option autoImplicit false

namespace MutantSieve

namespace Text

theorem cut_at_first {c : Char} {s t u v : List Char} (hs : c ∉ s) (ht : c ∉ t)
    (same : s ++ c :: u = t ++ c :: v) : s = t ∧ u = v := by
  induction s generalizing t with
  | nil =>
    cases t with
    | nil => exact ⟨rfl, (List.cons.inj same).2⟩
    | cons d t =>
      have first : c = d := (List.cons.inj same).1
      exact absurd first (by simp at ht; exact ht.1)
  | cons a s ih =>
    cases t with
    | nil =>
      have first : a = c := (List.cons.inj same).1
      exact absurd first.symm (by simp at hs; exact hs.1)
    | cons d t =>
      have first : a = d := (List.cons.inj same).1
      have rest := ih (fun h => hs (by simp [h])) (fun h => ht (by simp [h])) (List.cons.inj same).2
      exact ⟨by rw [first, rest.1], rest.2⟩

theorem digits_inj {n k : Nat} (same : digits n = digits k) : n = k := by
  rw [← readDigits_digits n, same, readDigits_digits]

theorem blank_not_in_digits (n : Nat) : ' ' ∉ digits n := by
  intro inside
  have digit := digits_isDigit n ' ' inside
  exact absurd digit (by decide)

end Text

namespace MethodDescriptor

variable {m n : MethodDescriptor} {s t : List Char}

/-- A sign for no value is no type, so it shows what a return type is and where it ends. -/
theorem renderReturn_append_inj {r q : Option FieldType} (hr : ∀ a ∈ r, a.Named)
    (hq : ∀ a ∈ q, a.Named) (same : renderReturn r ++ s = renderReturn q ++ t) :
    r = q ∧ s = t := by
  have typed_apart (a : FieldType) (u v : List Char) : 'V' :: u ≠ a.render ++ v := by
    obtain ⟨tag, tail, tagged, -, other⟩ := a.render_tag
    rw [tagged]
    exact fun same => other (List.cons.inj same).1.symm
  cases r with
  | none =>
    cases q with
    | none => exact ⟨rfl, (List.cons.inj same).2⟩
    | some b => exact absurd same (typed_apart b s t)
  | some a =>
    cases q with
    | none => exact absurd same.symm (typed_apart a t s)
    | some b =>
      have left := FieldType.read_render (hr a rfl) s
      have right := FieldType.read_render (hq b rfl) t
      rw [show a.render ++ s = b.render ++ t from same, right] at left
      cases left
      exact ⟨rfl, rfl⟩

theorem render_append_inj (hm : m.Named) (hn : n.Named) (same : m.render ++ s = n.render ++ t) :
    m = n ∧ s = t := by
  simp only [render, List.cons_append, List.append_assoc, List.cons.injEq, true_and] at same
  have left := readArguments_render hm.1 (renderReturn m.returnType ++ s)
  have right := readArguments_render hn.1 (renderReturn n.returnType ++ t)
  rw [same, right] at left
  have parts := Except.ok.inj left
  have arguments : n.arguments = m.arguments := congrArg Prod.fst parts
  have returned : renderReturn n.returnType ++ t = renderReturn m.returnType ++ s :=
    congrArg Prod.snd parts
  have last := renderReturn_append_inj hn.2 hm.2 returned
  cases m
  cases n
  simp_all

end MethodDescriptor

namespace MutationId

/-- An id whose names are such as source code can have, with a method descriptor and a mutator that
some text names. -/
structure Legible (i : MutationId) : Prop where
  «class» : ':' ∉ i.location.class.toList
  method : '(' ∉ i.location.method.toList
  descriptor : ∃ m, MethodDescriptor.parse i.location.descriptor = .ok m
  mutator : i.mutator.Nameable

def displayTail (i : MutationId) : List Char :=
  Text.digits i.index.toNat ++ ' ' :: '[' :: (i.mutator.uniqueId.toList ++ [']'])

theorem display_toList (i : MutationId) :
    i.display.toList = i.location.class.toList ++ ':' :: ':' :: (i.location.method.toList ++
      (i.location.descriptor.toList ++ '@' :: i.displayTail)) := by
  simp [display, Location.display, displayTail, Text.natural, String.toList_append,
    String.toList_ofList]

section Parts

variable {i j : MutationId}

theorem index_mutator_of_tail (hi : i.Legible) (hj : j.Legible)
    (same : i.displayTail = j.displayTail) : i.index = j.index ∧ i.mutator = j.mutator := by
  have cut := Text.cut_at_first (Text.blank_not_in_digits _) (Text.blank_not_in_digits _) same
  have index : i.index.toNat = j.index.toNat := Text.digits_inj cut.1
  have ids : i.mutator.uniqueId = j.mutator.uniqueId := by
    apply String.toList_inj.mp
    exact List.append_cancel_right (List.cons.inj cut.2).2
  exact ⟨UInt64.toNat_inj.mp index, hi.mutator.eq_of_uniqueId hj.mutator ids⟩

theorem location_of_display (hi : i.Legible) (hj : j.Legible) (same : i.display = j.display) :
    i.location = j.location ∧ i.displayTail = j.displayTail := by
  obtain ⟨m, parsed⟩ := hi.descriptor
  obtain ⟨n, parsed'⟩ := hj.descriptor
  have left := MethodDescriptor.read_eq_ok_iff.mp parsed
  have right := MethodDescriptor.read_eq_ok_iff.mp parsed'
  have text : i.display.toList = j.display.toList := congrArg String.toList same
  rw [display_toList, display_toList] at text
  have atClass := Text.cut_at_first hi.class hj.class text
  have behind := (List.cons.inj atClass.2).2
  -- A descriptor starts with the parenthesis that ends the name of the method.
  rw [left.2, right.2] at behind
  have atMethod := Text.cut_at_first hi.method hj.method behind
  have whole : m.render ++ '@' :: i.displayTail = n.render ++ '@' :: j.displayTail := by
    simp only [MethodDescriptor.render, List.cons_append, List.cons.injEq, true_and]
    exact atMethod.2
  have atDescriptor := MethodDescriptor.render_append_inj left.1 right.1 whole
  have «class» : i.location.class = j.location.class := String.toList_inj.mp atClass.1
  have method : i.location.method = j.location.method := String.toList_inj.mp atMethod.1
  have descriptor : i.location.descriptor = j.location.descriptor := by
    apply String.toList_inj.mp
    rw [left.2, right.2, atDescriptor.1]
  constructor
  · cases h : i.location
    cases k : j.location
    simp_all
  · exact (List.cons.inj atDescriptor.2).2

end Parts

/-- Two mutations are printed alike only if they are the same in location, index and mutator. -/
theorem display_eq_iff {i j : MutationId} (hi : i.Legible) (hj : j.Legible) :
    i.display = j.display ↔
      i.location = j.location ∧ i.index = j.index ∧ i.mutator = j.mutator := by
  constructor
  · intro same
    have place := location_of_display hi hj same
    exact ⟨place.1, index_mutator_of_tail hi hj place.2⟩
  · rintro ⟨location, index, mutator⟩
    rw [display, display, location, index, mutator]

def feignedEnd : MutationId := ⟨⟨"A", "m", "(L)V@1 [x];)V"⟩, 1, .other "x"⟩

def feignedRest : MutationId := ⟨⟨"A", "m", "()V"⟩, 1, .other "x];)V@1 [x"⟩

/-- Their printed ids differ in a single letter only. -/
theorem feigned_apart : feignedEnd.Legible ∧ feignedRest.Legible ∧
    feignedEnd.display ≠ feignedRest.display := by
  have hi : feignedEnd.Legible :=
    ⟨by decide, by decide, ⟨⟨[.object ")V@1 [x]"], none⟩, MethodDescriptor.read_eq_ok_iff.mpr
      ⟨by simp [MethodDescriptor.Named, FieldType.Named], rfl⟩⟩, ⟨"x", by decide +kernel⟩⟩
  have hj : feignedRest.Legible :=
    ⟨by decide, by decide, ⟨⟨[], none⟩, MethodDescriptor.read_eq_ok_iff.mpr
      ⟨by simp [MethodDescriptor.Named], rfl⟩⟩, ⟨"x];)V@1 [x", by decide +kernel⟩⟩
  refine ⟨hi, hj, fun same => ?_⟩
  have places := ((display_eq_iff hi hj).mp same).1
  exact absurd places (by decide)

/-- With a colon in a class name even locations can be printed alike. -/
example : (Location.mk "a" "b::c" "()V").display = (Location.mk "a::b" "c" "()V").display := by
  decide

end MutationId

end MutantSieve
