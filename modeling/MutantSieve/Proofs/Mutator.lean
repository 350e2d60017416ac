import Mathlib.Data.List.Nodup
import MutantSieve.Mutator
import MutantSieve.Proofs.Blank

/-!
# Mutators and their names

A text names the known mutator whose short name or identifier it is, and no text names two of them.
Any other text names an unknown mutator. Either way the identifier of the mutator names the same
mutator again.
-/

set_option autoImplicit false

namespace MutantSieve

theorem Text.sameLetters_length {s t : String} (h : sameLetters s t = true) :
    s.toList.length = t.toList.length := by
  have folded := congrArg List.length (beq_iff_eq.mp h)
  simpa only [List.length_map] using folded

theorem Text.sameLetters_trans {s t u : String} (h : sameLetters s t = true)
    (h' : sameLetters t u = true) : sameLetters s u = true := by
  simp only [sameLetters, beq_iff_eq] at h h' ⊢
  exact h.trans h'

namespace Mutator

def isNamed (id : String) (m : Mutator) : Bool :=
  m.shortName?.any (Text.sameLetters id) || decide (id = m.uniqueId)

def Names (id : String) (m : Mutator) : Prop :=
  (∃ s, m.shortName? = some s ∧ Text.sameLetters id s = true) ∨ id = m.uniqueId

section Names

variable {m n : Mutator} {id : String}

theorem isNamed_iff : isNamed id m = true ↔ Names id m := by
  rw [isNamed, Bool.or_eq_true, decide_eq_true_eq, Option.any_eq_true]
  rfl

theorem isNamed_uniqueId (m : Mutator) : isNamed m.uniqueId m = true :=
  isNamed_iff.mpr (Or.inr rfl)

theorem not_known_other (text : String) : other text ∉ known := by simp [known]

theorem mem_known_iff : m ∈ known ↔ ∀ text, m ≠ other text := by
  cases m with
  | other text => exact iff_of_false (not_known_other text) fun apart => apart text rfl
  | _ => exact iff_of_true (by decide) fun _ same => nomatch same

theorem uniqueId_known (h : m ∈ known) : ∃ name : String, m.uniqueId = package ++ name ∧
    (name.toList.all fun c => !Text.isBlank c) = true := by
  cases m with
  | other id => exact absurd h (not_known_other id)
  | _ => exact ⟨_, rfl, by decide +kernel⟩

theorem shortName_short : ∀ m ∈ known, ∀ s ∈ m.shortName?,
    s.toList.length < package.toList.length := by
  decide +kernel

theorem shortNames_apart : ∀ m ∈ known, ∀ n ∈ known,
    (m.shortName?.any fun s => n.shortName?.any (Text.sameLetters s)) = true → m = n := by
  decide +kernel

theorem shortName_visible : ∀ m ∈ known, ∀ s ∈ m.shortName?,
    (s.toList.all fun c => !Text.isBlank c) = true := by
  decide +kernel

theorem uniqueIds_nodup : (known.map uniqueId).Nodup := by
  decide +kernel

/-- An identifier starts with the package, so it is longer than every short name. -/
theorem not_sameLetters_uniqueId (hm : m ∈ known) (hn : n ∈ known) {s : String}
    (short : m.shortName? = some s) : Text.sameLetters n.uniqueId s = false := by
  rw [Bool.eq_false_iff]
  intro same
  obtain ⟨name, whole, -⟩ := uniqueId_known hn
  have lengths := Text.sameLetters_length same
  have bound := shortName_short m hm s short
  rw [whole, String.toList_append, List.length_append] at lengths
  omega

theorem eq_of_isNamed (hm : m ∈ known) (hn : n ∈ known) (named : isNamed id m = true)
    (named' : isNamed id n = true) : m = n := by
  rcases isNamed_iff.mp named with ⟨s, short, same⟩ | rfl
  · rcases isNamed_iff.mp named' with ⟨t, short', same'⟩ | rfl
    · have alike : Text.sameLetters s t = true := by
        rw [Text.sameLetters_comm] at same
        exact Text.sameLetters_trans same same'
      exact shortNames_apart m hm n hn (by simp [short, short', alike])
    · rw [not_sameLetters_uniqueId hm hn short] at same
      cases same
  · rcases isNamed_iff.mp named' with ⟨t, short', same'⟩ | same'
    · rw [not_sameLetters_uniqueId hn hm short'] at same'
      cases same'
    · exact List.inj_on_of_nodup_map uniqueIds_nodup hm hn same'

theorem trimmed_uniqueId (h : m ∈ known) : Text.trimmed m.uniqueId = m.uniqueId := by
  obtain ⟨name, whole, visible⟩ := uniqueId_known h
  have package_visible : (package.toList.all fun c => !Text.isBlank c) = true := by decide +kernel
  have all_visible : (m.uniqueId.toList.all fun c => !Text.isBlank c) = true := by
    rw [whole, String.toList_append, List.all_append, package_visible, visible, Bool.and_self]
  apply Text.trimmed_of_visible
  intro c hc
  simpa using List.all_eq_true.mp all_visible c hc

theorem label_known (h : m ∈ known) : m.shortName? = some m.label := by
  cases m with
  | other id => exact absurd h (not_known_other id)
  | _ => rfl

theorem trimmed_label (h : m ∈ known) : Text.trimmed m.label = m.label := by
  apply Text.trimmed_of_visible
  intro c hc
  simpa using List.all_eq_true.mp (shortName_visible m h m.label (label_known h)) c hc

theorem isNamed_label (h : m ∈ known) : isNamed m.label m = true :=
  isNamed_iff.mpr (Or.inl ⟨m.label, label_known h, Text.sameLetters_refl m.label⟩)

end Names

section Reading

variable {m : Mutator} {text : String}

theorem ofId_eq (text : String) :
    ofId text = (known.find? (isNamed (Text.trimmed text))).getD (other (Text.trimmed text)) := rfl

theorem ofId_named (h : m ∈ known) (named : isNamed (Text.trimmed text) m = true) :
    ofId text = m := by
  cases found : known.find? (isNamed (Text.trimmed text)) with
  | none => exact absurd named (List.find?_eq_none.mp found m h)
  | some n =>
    rw [ofId_eq, found]
    exact eq_of_isNamed (List.mem_of_find?_eq_some found) h (List.find?_some found) named

theorem ofId_unnamed (h : ∀ m ∈ known, isNamed (Text.trimmed text) m = false) :
    ofId text = other (Text.trimmed text) := by
  have found : known.find? (isNamed (Text.trimmed text)) = none := by
    rw [List.find?_eq_none]
    intro m hm
    simp [h m hm]
  rw [ofId_eq, found, Option.getD_none]

theorem named_or_unnamed (id : String) :
    (∃ m ∈ known, isNamed id m = true) ∨ ∀ m ∈ known, isNamed id m = false := by
  by_cases named : ∃ m ∈ known, isNamed id m = true
  · exact .inl named
  · refine .inr fun m hm => ?_
    simpa using fun h => named ⟨m, hm, h⟩

theorem ofId_uniqueId (text : String) : ofId (ofId text).uniqueId = ofId text := by
  rcases named_or_unnamed (Text.trimmed text) with ⟨m, hm, named⟩ | unnamed
  · rw [ofId_named hm named]
    apply ofId_named hm
    rw [trimmed_uniqueId hm]
    exact isNamed_uniqueId m
  · rw [ofId_unnamed unnamed]
    have kept : Text.trimmed (other (Text.trimmed text)).uniqueId = Text.trimmed text :=
      Text.trimmed_trimmed text
    rw [← kept] at unnamed
    rw [ofId_unnamed unnamed, kept]

theorem ofId_label (text : String) : ofId (ofId text).label = ofId text := by
  rcases named_or_unnamed (Text.trimmed text) with ⟨m, hm, named⟩ | unnamed
  · rw [ofId_named hm named]
    apply ofId_named hm
    rw [trimmed_label hm]
    exact isNamed_label hm
  · have own : (ofId text).label = (ofId text).uniqueId := by
      rw [ofId_unnamed unnamed]
      rfl
    rw [own, ofId_uniqueId]

def Nameable (m : Mutator) : Prop := ∃ text, ofId text = m

theorem Nameable.ofId_label {m : Mutator} (h : m.Nameable) : ofId m.label = m := by
  obtain ⟨text, rfl⟩ := h
  exact Mutator.ofId_label text

theorem Nameable.eq_of_label {m n : Mutator} (hm : m.Nameable) (hn : n.Nameable)
    (same : m.label = n.label) : m = n := by
  rw [← hm.ofId_label, same, hn.ofId_label]

theorem Nameable.eq_of_uniqueId {m n : Mutator} (hm : m.Nameable) (hn : n.Nameable)
    (same : m.uniqueId = n.uniqueId) : m = n := by
  obtain ⟨text, rfl⟩ := hm
  obtain ⟨text', rfl⟩ := hn
  rw [← ofId_uniqueId text, same, ofId_uniqueId text']

theorem ofId_eq_iff (text : String) (m : Mutator) :
    ofId text = m ↔
      (m ∈ known ∧ Names (Text.trimmed text) m) ∨
        (m = other (Text.trimmed text) ∧ ∀ n ∈ known, ¬ Names (Text.trimmed text) n) := by
  constructor
  · rintro rfl
    rcases named_or_unnamed (Text.trimmed text) with ⟨n, hn, named⟩ | unnamed
    · rw [ofId_named hn named]
      exact .inl ⟨hn, isNamed_iff.mp named⟩
    · refine .inr ⟨ofId_unnamed unnamed, fun n hn names => ?_⟩
      exact Bool.eq_false_iff.mp (unnamed n hn) (isNamed_iff.mpr names)
  · rintro (⟨hm, names⟩ | ⟨rfl, none_named⟩)
    · exact ofId_named hm (isNamed_iff.mpr names)
    · refine ofId_unnamed fun n hn => Bool.eq_false_iff.mpr fun named => ?_
      exact none_named n hn (isNamed_iff.mp named)

/-- What a text stands for. It is the known mutator that the trimmed text names, of which there is
at most one, and else an unknown one with the trimmed text as its identifier. Both names of it stand
for it again, so neither is shared with another such mutator, and an unknown one has no name of a
known one. -/
theorem ofId_normalises (text : String) :
    (∀ m, ofId text = m ↔
      (m ∈ known ∧ Names (Text.trimmed text) m) ∨
        (m = other (Text.trimmed text) ∧ ∀ n ∈ known, ¬ Names (Text.trimmed text) n)) ∧
    (∀ m, m ∈ known ↔ ∀ id, m ≠ other id) ∧
    (∀ m ∈ known, ∀ n ∈ known,
      Names (Text.trimmed text) m → Names (Text.trimmed text) n → m = n) ∧
    ofId (ofId text).uniqueId = ofId text ∧
    ofId (ofId text).label = ofId text ∧
    (∀ text', (ofId text).uniqueId = (ofId text').uniqueId ↔ ofId text = ofId text') ∧
    (∀ text', (ofId text).label = (ofId text').label ↔ ofId text = ofId text') ∧
    ∀ id, ofId text = other id → ∀ m ∈ known, ¬ Names id m := by
  have nameable (text : String) : (ofId text).Nameable := ⟨text, rfl⟩
  refine ⟨ofId_eq_iff text, fun m => mem_known_iff, ?_, ofId_uniqueId text, ofId_label text,
    fun text' => ⟨(nameable text).eq_of_uniqueId (nameable text'), congrArg uniqueId⟩,
    fun text' => ⟨(nameable text).eq_of_label (nameable text'), congrArg label⟩, ?_⟩
  · intro m hm n hn names names'
    exact eq_of_isNamed hm hn (isNamed_iff.mpr names) (isNamed_iff.mpr names')
  · intro id unknown
    rcases (ofId_eq_iff text _).mp unknown with ⟨known, -⟩ | ⟨same, none_named⟩
    · exact absurd known (not_known_other id)
    · cases same
      exact none_named

end Reading

end Mutator

end MutantSieve
