import MutantSieve.Summary

/-!
# Look-ups in tallies

A tally is in the order of its keys, so it has each key once and is determined by its look-ups.
Changing the value of one key leaves the look-up of every other key alone. When items are counted in
one after another, the value of a key is therefore made of the items with that key alone.
-/

set_option autoImplicit false

namespace MutantSieve.Tally

variable {α : Type} {t u : Tally α}

def Ordered (t : Tally α) : Prop := t.Pairwise fun a b => Ord.compare a.1 b.1 = .lt

theorem ordered_nil : Ordered ([] : Tally α) := List.Pairwise.nil

theorem compare_self (k : String) : Ord.compare k k = .eq := Std.ReflCmp.compare_self

theorem ne_of_lt {k l : String} (h : Ord.compare k l = .lt) : k ≠ l := by
  rintro rfl
  rw [compare_self] at h
  cases h

theorem lookup_eq_none {k : String} (h : ∀ e ∈ t, Ord.compare k e.1 = .lt) : t.lookup k = none := by
  rw [List.lookup_eq_none_iff]
  intro e he
  exact bne_iff_ne.mpr (ne_of_lt (h e he))

theorem Ordered.lookup_of_lt {k l : String} {a : α} (h : Ordered ((l, a) :: t))
    (before : Ord.compare k l = .lt) : ((l, a) :: t).lookup k = none := by
  apply lookup_eq_none
  intro e he
  cases he with
  | head => exact before
  | tail _ he => exact Std.TransCmp.lt_trans before (List.rel_of_pairwise_cons h he)

section Update

variable (key : String) (change : Option α → α)

theorem update_cons_lt {k : String} (h : Ord.compare key k = .lt) (a : α) (t : Tally α) :
    update key change ((k, a) :: t) = (key, change none) :: (k, a) :: t := by
  rw [update, h]

theorem update_cons_self (a : α) (t : Tally α) :
    update key change ((key, a) :: t) = (key, change (some a)) :: t := by
  rw [update, compare_self]

theorem update_cons_gt {k : String} (h : Ord.compare key k = .gt) (a : α) (t : Tally α) :
    update key change ((k, a) :: t) = (k, a) :: update key change t := by
  rw [update, h]

theorem mem_update {e : String × α} (h : e ∈ update key change t) : e.1 = key ∨ e ∈ t := by
  induction t with
  | nil =>
    left
    rw [List.mem_singleton.mp h]
  | cons entry rest ih =>
    obtain ⟨k, a⟩ := entry
    cases order : Ord.compare key k with
    | lt =>
      rw [update_cons_lt key change order] at h
      cases h with
      | head => exact Or.inl rfl
      | tail _ h => exact Or.inr h
    | eq =>
      obtain rfl := Std.LawfulEqCmp.eq_of_compare order
      rw [update_cons_self] at h
      cases h with
      | head => exact Or.inl rfl
      | tail _ h => exact Or.inr (List.mem_cons_of_mem _ h)
    | gt =>
      rw [update_cons_gt key change order] at h
      cases h with
      | head => exact Or.inr List.mem_cons_self
      | tail _ h =>
        rcases ih h with here | there
        · exact Or.inl here
        · exact Or.inr (List.mem_cons_of_mem _ there)

theorem Ordered.update (h : Ordered t) : Ordered (t.update key change) := by
  induction t with
  | nil => exact List.pairwise_singleton _ _
  | cons entry rest ih =>
    obtain ⟨k, a⟩ := entry
    obtain ⟨first, behind⟩ := List.pairwise_cons.mp h
    cases order : Ord.compare key k with
    | lt =>
      rw [update_cons_lt key change order]
      apply List.Pairwise.cons _ h
      intro e he
      cases he with
      | head => exact order
      | tail _ he => exact Std.TransCmp.lt_trans order (first e he)
    | eq =>
      obtain rfl := Std.LawfulEqCmp.eq_of_compare order
      rw [update_cons_self]
      exact List.Pairwise.cons first behind
    | gt =>
      rw [update_cons_gt key change order]
      apply List.Pairwise.cons _ (ih behind)
      intro e he
      rcases mem_update key change he with same | there
      · rw [same]
        exact Std.OrientedCmp.gt_iff_lt.mp order
      · exact first e there

theorem lookup_update_other {k : String} (other : k ≠ key) (t : Tally α) :
    (t.update key change).lookup k = t.lookup k := by
  have apart : (k == key) = false := by simpa using other
  induction t with
  | nil => rw [update, List.lookup_cons, apart]
  | cons entry rest ih =>
    obtain ⟨l, a⟩ := entry
    cases order : Ord.compare key l with
    | lt => rw [update_cons_lt key change order, List.lookup_cons, apart]
    | eq =>
      obtain rfl := Std.LawfulEqCmp.eq_of_compare order
      rw [update_cons_self, List.lookup_cons, List.lookup_cons, apart]
    | gt => rw [update_cons_gt key change order, List.lookup_cons, List.lookup_cons, ih]

theorem Ordered.lookup_update_self (h : Ordered t) :
    (t.update key change).lookup key = some (change (t.lookup key)) := by
  induction t with
  | nil => rw [Tally.update, List.lookup_cons_self, List.lookup_nil]
  | cons entry rest ih =>
    obtain ⟨k, a⟩ := entry
    cases order : Ord.compare key k with
    | lt => rw [update_cons_lt key change order, List.lookup_cons_self, h.lookup_of_lt order]
    | eq =>
      obtain rfl := Std.LawfulEqCmp.eq_of_compare order
      rw [update_cons_self, List.lookup_cons_self, List.lookup_cons_self]
    | gt =>
      have apart : (key == k) = false :=
        beq_false_of_ne (ne_of_lt (Std.OrientedCmp.gt_iff_lt.mp order)).symm
      rw [update_cons_gt key change order, List.lookup_cons, List.lookup_cons, apart,
        ih (List.pairwise_cons.mp h).2]

end Update

theorem Ordered.mem_iff_lookup (h : Ordered t) (k : String) (a : α) :
    (k, a) ∈ t ↔ t.lookup k = some a := by
  induction t with
  | nil => simp
  | cons entry rest ih =>
    obtain ⟨l, b⟩ := entry
    obtain ⟨first, behind⟩ := List.pairwise_cons.mp h
    by_cases same : k = l
    · subst same
      have once : (k, a) ∉ rest := fun there => ne_of_lt (first (k, a) there) rfl
      simp [once, eq_comm]
    · have apart : (k == l) = false := by simpa using same
      simp [List.lookup_cons, apart, same, ih behind]

theorem Ordered.ext (ht : Ordered t) (hu : Ordered u) (h : ∀ k, t.lookup k = u.lookup k) :
    t = u := by
  have members : ∀ e, e ∈ t ↔ e ∈ u := by
    rintro ⟨k, a⟩
    rw [ht.mem_iff_lookup, hu.mem_iff_lookup, h k]
  have distinct : ∀ {v : Tally α}, Ordered v → v.Nodup := fun hv =>
    hv.imp fun before same => ne_of_lt before (congrArg Prod.fst same)
  apply List.Perm.eq_of_pairwise _ ht hu
  · exact (List.perm_ext_iff_of_nodup (distinct ht) (distinct hu)).mpr members
  · intro a b _ _ before after
    rw [Std.OrientedCmp.gt_iff_lt.symm.mp after] at before
    cases before

section Counting

variable {ι : Type} (key : ι → String) (step : ι → α → α) (start : α)

/-- Items counted in one after another, each under its key. A new key begins with the value
`start`. -/
def countIn (t : Tally α) (items : List ι) : Tally α :=
  items.foldl (fun t x => t.update (key x) fun a => step x (a.getD start)) t

theorem countIn_cons (t : Tally α) (x : ι) (items : List ι) :
    t.countIn key step start (x :: items) =
      (t.update (key x) fun a => step x (a.getD start)).countIn key step start items := rfl

theorem Ordered.countIn (h : Ordered t) (items : List ι) :
    Ordered (t.countIn key step start items) := by
  induction items generalizing t with
  | nil => exact h
  | cons x items ih => exact ih (h.update (key x) _)

theorem Ordered.lookup_countIn (h : Ordered t) (items : List ι) (k : String) :
    (t.countIn key step start items).lookup k =
      match items.filter fun x => decide (key x = k) with
      | [] => t.lookup k
      | own => some (own.foldl (fun a x => step x a) ((t.lookup k).getD start)) := by
  induction items generalizing t with
  | nil => rfl
  | cons x items ih =>
    rw [countIn_cons, ih (h.update (key x) _)]
    by_cases own : key x = k
    · subst own
      rw [h.lookup_update_self, List.filter_cons_of_pos (by simp)]
      cases items.filter fun y => decide (key y = key x) <;> rfl
    · rw [lookup_update_other _ _ (Ne.symm own), List.filter_cons_of_neg (by simp [own])]

theorem lookup_countIn_nil (items : List ι) (k : String) :
    (countIn key step start [] items).lookup k =
      if k ∈ items.map key then
        some ((items.filter fun x => decide (key x = k)).foldl (fun a x => step x a) start)
      else none := by
  rw [ordered_nil.lookup_countIn]
  cases own : items.filter fun x => decide (key x = k) with
  | nil =>
    have absent : k ∉ items.map key := by
      simpa [List.filter_eq_nil_iff] using own
    rw [if_neg absent, List.lookup_nil]
  | cons x rest =>
    have there : x ∈ items.filter fun x => decide (key x = k) := by
      rw [own]
      exact List.mem_cons_self
    have present : k ∈ items.map key := by
      obtain ⟨hx, named⟩ := List.mem_filter.mp there
      exact List.mem_map.mpr ⟨x, hx, of_decide_eq_true named⟩
    rw [if_pos present]
    rfl

end Counting

end MutantSieve.Tally
