import MutantSieve.Proofs.Decode
import MutantSieve.Proofs.Rounding
import MutantSieve.Summary

/-!
# Reading durations

A duration is read as a double number of seconds. Only a number that is not negative and below
`2 ^ 64` stands for a span of time. Any other number of the right shape breaks the reading off, and
nothing else does: whatever comes up before it is decoded or refused for its shape.
-/

set_option autoImplicit false

namespace MutantSieve

namespace Binary

/-- The seconds that a span of time can have. The negative zero is among them. -/
def Spans : Binary → Prop
  | finite negative m q => (negative = true → m = 0) ∧ m * up q < Word.size 64 * down q
  | _ => False

theorem divNearest_one (a : Nat) : divNearest a 1 = a := by
  simp [divNearest, Nat.mod_one]

/-- The limit of whole nanoseconds is the limit of seconds: a double that rounding could lift over
it would have more digits than doubles have. -/
theorem nanos_lt_iff {m : Nat} (fits : m < double.limit) (q : Int) :
    divNearest (m * Elapsed.perSecond * up q) (down q) < Word.size 64 * Elapsed.perSecond ↔
      m * up q < Word.size 64 * down q := by
  by_cases whole : 0 ≤ q
  · have one : down q = 1 := by
      rw [down, show (-q).toNat = 0 by omega]
    rw [one, divNearest_one, Nat.mul_right_comm, Nat.mul_one]
    exact Nat.mul_lt_mul_right (by decide)
  · have one : up q = 1 := by
      rw [up, show q.toNat = 0 by omega]
    have limit : double.limit = 9007199254740992 := rfl
    have seconds : Word.size 64 = 18446744073709551616 := rfl
    have nanos : m * Elapsed.perSecond + 1 < Word.size 64 * Elapsed.perSecond := by
      rw [seconds, Elapsed.perSecond]
      omega
    have rounded := divNearest_le (m * Elapsed.perSecond) (down q)
    have shrunk := Nat.div_le_self (m * Elapsed.perSecond) (down q)
    have positive := down_pos q
    rw [one, Nat.mul_one, Nat.mul_one]
    constructor
    · intro _
      rw [seconds]
      omega
    · intro _
      omega

theorem ofSeconds_eq_none_iff {x : Binary} (fits : x.Fits double) :
    Elapsed.ofSeconds x = none ↔ ¬ x.Spans := by
  cases x with
  | finite negative m q =>
    rw [Elapsed.ofSeconds, Spans, ← nanos_lt_iff fits q]
    by_cases below : negative = true ∧ m ≠ 0
    · simp [below]
    · have upward : negative = true → m = 0 := by
        intro isNegative
        by_contra filled
        exact below ⟨isNegative, filled⟩
      rw [if_neg (by simpa using below), and_iff_right upward]
      simp
  | infinite negative => simp [Elapsed.ofSeconds, Spans]
  | undefined => simp [Elapsed.ofSeconds, Spans]

end Binary

namespace Decode

section Settling

variable {α β σ : Type} {r : Decoded α} {d : Data}

/-- Decoding that ends with a value or with a refusal of the data for their shape. -/
def Settled (r : Decoded α) : Prop := (∃ a, r = .ok a) ∨ r = .error .malformed

theorem settled_ok (a : α) : Settled (.ok a : Decoded α) := .inl ⟨a, rfl⟩

theorem settled_malformed : Settled (.error .malformed : Decoded α) := .inr rfl

theorem settled_error_iff {e : Refusal} : Settled (.error e : Decoded α) ↔ e = .malformed := by
  simp [Settled]

theorem settled_map_iff {f : α → β} : Settled (r.map f) ↔ Settled r := by
  cases r with
  | ok a => exact iff_of_true (settled_ok (f a)) (settled_ok a)
  | error e => exact settled_error_iff.trans settled_error_iff.symm

theorem settled_bind_iff {f : α → Decoded β} :
    Settled (r >>= f) ↔ Settled r ∧ ∀ a, r = .ok a → Settled (f a) := by
  cases r with
  | ok a =>
    show Settled (f a) ↔ _
    simp [settled_ok]
  | error e =>
    show Settled (.error e) ↔ _
    simp [settled_error_iff]

theorem settled_bind {f : α → Decoded β} (first : Settled r) (others : ∀ a, Settled (f a)) :
    Settled (r >>= f) :=
  settled_bind_iff.mpr ⟨first, fun a _ => others a⟩

theorem settled_ended (closed : Bool) (a : α) : Settled (ended closed a) := by
  cases closed with
  | true => exact settled_ok a
  | false => exact settled_malformed

theorem settled_present (o : Option α) : Settled (present o) := by
  cases o with
  | some a => exact settled_ok a
  | none => exact settled_malformed

theorem settled_skip (s : σ) : Settled (skip d s) := by
  unfold skip
  split
  · exact settled_ok s
  · exact settled_malformed

theorem fits_float {x : Binary} (h : float Binary.double d = .ok x) : x.Fits Binary.double := by
  unfold float at h
  split at h
  · split at h
    · cases h
      exact Binary.fits_round Binary.double (by decide) _ _ (by decide)
    · cases h
  · cases h
    exact Binary.fits_convert Binary.double (by decide) _
  · cases h

theorem settled_json_iff {decode : Data → Decoded α} {s : List Char} :
    Settled (json decode s) ↔ Settled (decode (Json.read s).1) := by
  unfold json
  cases decoded : decode (Json.read s).1 with
  | ok a => simp [decoded, settled_ok, settled_ended]
  | error e => simp [decoded, settled_error_iff]

theorem settled_fill_iff {decode : Data → Decoded α} {before : Option α} :
    Settled (fill decode d before) ↔ (before = none → Settled (decode d)) := by
  cases before with
  | none => simp [fill, settled_map_iff]
  | some a => simp [fill, settled_malformed]

theorem settled_field_iff {decode : Data → Decoded α} {before : Option α} {put : Option α → σ} :
    Settled (do return put (← fill decode d before)) ↔ (before = none → Settled (decode d)) := by
  rw [← settled_fill_iff, settled_bind_iff]
  exact and_iff_left fun field _ => settled_ok (put field)

end Settling

section Lists

variable {α β : Type} {decode : Data → Decoded α}

theorem settled_items (settles : ∀ d, Settled (decode d)) (ds : List Data) :
    Settled (items decode ds) := by
  induction ds with
  | nil => exact settled_ok []
  | cons d ds ih =>
    have first := settles d
    rw [items]
    cases decoded : decode d with
    | ok a => exact settled_map_iff.mpr ih
    | error e =>
      rw [decoded, settled_error_iff] at first
      exact settled_error_iff.mpr first

theorem settled_list (settles : ∀ d, Settled (decode d)) (d : Data) :
    Settled (list decode d) := by
  cases d with
  | list ds closed =>
    have whole := settled_items settles ds
    rw [list]
    cases decoded : items decode ds with
    | ok as => exact settled_ended closed as
    | error e =>
      rw [decoded, settled_error_iff] at whole
      exact settled_error_iff.mpr whole
  | _ => exact settled_malformed

theorem settled_next (settles : ∀ d, Settled (decode d)) (ds : List Data) :
    Settled (next decode ds) := by
  cases ds with
  | nil => exact settled_malformed
  | cons d rest => exact settled_map_iff.mpr (settles d)

end Lists

section Records

variable {σ : Type} {step : σ → String → Data → Decoded σ}

theorem settled_members_iff {s : σ} {ms : List (Option String × Data)} :
    Settled (members step s ms) ↔
      ∀ front name v behind t, ms = front ++ (some name, v) :: behind →
        members step s front = .ok t → Settled (step t name v) := by
  induction ms generalizing s with
  | nil => simp [members, settled_ok]
  | cons m ms ih =>
    constructor
    · intro settled front name v behind t split taken
      cases front with
      | nil =>
        cases split
        cases taken
        rw [members] at settled
        cases first : step s name v with
        | ok s' => exact settled_ok s'
        | error e =>
          rw [first] at settled
          exact settled_error_iff.mpr (settled_error_iff.mp settled)
      | cons m' front =>
        obtain ⟨name', s', named, first, others⟩ := of_members_cons taken
        obtain ⟨written, d⟩ := m'
        cases named
        cases split
        rw [members, first] at settled
        exact ih.mp settled front name v behind t rfl others
    · intro each
      obtain ⟨name | name, d⟩ := m
      · exact settled_malformed
      · have first := each [] name d ms s rfl rfl
        rw [members]
        cases taken : step s name d with
        | error e =>
          rw [taken] at first
          exact settled_error_iff.mpr (settled_error_iff.mp first)
        | ok s' =>
          apply ih.mpr
          intro front name' v behind t split others
          apply each ((some name, d) :: front) name' v behind t (by rw [split, List.cons_append])
          rw [members, taken]
          exact others

theorem settled_record_iff {s : σ} {ms : List (Option String × Data)} {closed : Bool} :
    Settled (record step s ms closed) ↔ Settled (members step s ms) := by
  unfold record
  cases taken : members step s ms with
  | ok t => simp [settled_ok, settled_ended]
  | error e => simp [settled_error_iff]

theorem settled_record (settles : ∀ s name d, Settled (step s name d)) (s : σ)
    (ms : List (Option String × Data)) (closed : Bool) : Settled (record step s ms closed) :=
  settled_record_iff.mpr (settled_members_iff.mpr fun _ name v _ t _ _ => settles t name v)

end Records

section Plain

theorem settled_text (d : Data) : Settled (text d) := by
  unfold text
  split
  · exact settled_ok _
  · exact settled_malformed

theorem settled_natural (bits : Nat) (d : Data) : Settled (natural bits d) := by
  rw [natural, settled_map_iff]
  unfold integer
  split
  · split
    · exact settled_ok _
    · exact settled_malformed
  · exact settled_malformed

theorem settled_float (f : Binary.Format) (d : Data) : Settled (float f d) := by
  unfold float
  split
  · split
    · exact settled_ok _
    · exact settled_malformed
  · exact settled_ok _
  · exact settled_malformed

theorem settled_tally {α : Type} {decode : Data → Decoded α} (settles : ∀ d, Settled (decode d))
    (d : Data) : Settled (tally decode d) := by
  cases d with
  | record ms closed =>
    exact settled_record (fun t name d => settled_map_iff.mpr (settles d)) [] ms closed
  | _ => exact settled_malformed

theorem settled_countStep (f : CountFields) (name : String) (d : Data) :
    Settled (f.step name d) := by
  unfold CountFields.step
  split
  · exact settled_field_iff.mpr fun _ => settled_natural 64 d
  · exact settled_field_iff.mpr fun _ => settled_natural 64 d
  · exact settled_skip f

theorem settled_mutatorCount (d : Data) : Settled (mutatorCount d) := by
  cases d with
  | record ms closed =>
    apply settled_bind (settled_record settled_countStep {} ms closed)
    intro f
    apply settled_bind (settled_present f.total)
    intro total
    apply settled_bind (settled_present f.filtered)
    exact fun filtered => settled_ok _
  | list ds closed =>
    apply settled_bind (settled_next (settled_natural 64) ds)
    intro (total, ds)
    apply settled_bind (settled_next (settled_natural 64) ds)
    intro (filtered, ds)
    apply settled_bind (settled_ended (closed && ds.isEmpty) ())
    exact fun _ => settled_ok _
  | _ => exact settled_malformed

end Plain

section Summaries

theorem settled_elapsed_iff {d : Data} :
    Settled (elapsed d) ↔ ∀ x, float Binary.double d = .ok x → x.Spans := by
  unfold elapsed
  cases read : float Binary.double d with
  | error e =>
    have settled := settled_float Binary.double d
    rw [read, settled_error_iff] at settled
    simp [settled, settled_malformed]
  | ok x =>
    have outside := Binary.ofSeconds_eq_none_iff (fits_float read)
    cases span : Elapsed.ofSeconds x with
    | none => simp [span, settled_error_iff, outside.mp span]
    | some e =>
      have inside : x.Spans := by
        by_contra beyond
        rw [outside.mpr beyond] at span
        cases span
      simp [span, settled_ok, inside]

theorem settled_summaryStep_iff {f : SummaryFields} {name : String} {d : Data} :
    Settled (f.step name d) ↔ (name = "duration" → f.duration = none → Settled (elapsed d)) := by
  have other : ∀ {r : Decoded SummaryFields} {key : String}, key ≠ "duration" → Settled r →
      (Settled r ↔ (key = "duration" → f.duration = none → Settled (elapsed d))) :=
    fun apart settled => iff_of_true settled fun same => absurd same apart
  have counted : ∀ before : Option Nat, before = none → Settled (natural 64 d) :=
    fun _ _ => settled_natural 64 d
  unfold SummaryFields.step
  split
  · exact other (by decide) (settled_field_iff.mpr (counted _))
  · exact other (by decide) (settled_field_iff.mpr (counted _))
  · exact other (by decide) (settled_field_iff.mpr (counted _))
  · exact other (by decide) (settled_field_iff.mpr (counted _))
  · exact other (by decide) (settled_field_iff.mpr fun _ => settled_float Binary.double d)
  · exact other (by decide) (settled_field_iff.mpr fun _ => settled_list settled_text d)
  · exact other (by decide)
      (settled_field_iff.mpr fun _ => settled_tally (settled_natural 64) d)
  · exact other (by decide) (settled_field_iff.mpr fun _ => settled_tally settled_mutatorCount d)
  · exact settled_field_iff.trans (by simp)
  · rename_i unknown
    exact other unknown (settled_skip f)

theorem settled_summary_record_iff {ms : List (Option String × Data)} {closed : Bool} :
    Settled (summary (.record ms closed)) ↔
      ∀ front v behind f, ms = front ++ (some "duration", v) :: behind →
        members SummaryFields.step {} front = .ok f → f.duration = none → Settled (elapsed v) := by
  have built : Settled (summary (.record ms closed)) ↔
      Settled (record SummaryFields.step {} ms closed) := by
    unfold summary
    rw [settled_bind_iff]
    apply and_iff_left
    intro f _
    iterate 9
      apply settled_bind (settled_present _)
      intro _
    exact settled_ok _
  rw [built, settled_record_iff, settled_members_iff]
  constructor
  · intro each front v behind f split taken first
    exact settled_summaryStep_iff.mp (each front "duration" v behind f split taken) rfl first
  · intro each front name v behind f split taken
    apply settled_summaryStep_iff.mpr
    intro isDuration first
    subst isDuration
    exact each front v behind f split taken first

theorem duration_of_step {f f' : SummaryFields} {name : String} {d : Data}
    (taken : f.step name d = .ok f') :
    f'.duration = none ↔ f.duration = none ∧ name ≠ "duration" := by
  unfold SummaryFields.step at taken
  split at taken
  case h_9 =>
    obtain ⟨e, -, rfl⟩ := filled taken
    simp
  case h_10 unknown =>
    rw [of_skip taken]
    exact (and_iff_left unknown).symm
  all_goals
    obtain ⟨a, -, rfl⟩ := filled taken
    simp

theorem duration_of_members {f f' : SummaryFields} {ms : List (Option String × Data)}
    (taken : members SummaryFields.step f ms = .ok f') :
    f'.duration = none ↔ f.duration = none ∧ ∀ m ∈ ms, m.1 ≠ some "duration" := by
  induction ms generalizing f with
  | nil =>
    cases taken
    simp
  | cons m ms ih =>
    obtain ⟨name, next, named, first, others⟩ := of_members_cons taken
    rw [ih others, duration_of_step first, List.forall_mem_cons, named, and_assoc]
    simp

def Takes {α : Type} (decode : Data → Decoded α) (d : Data) : Prop := ∃ a, decode d = .ok a

def fieldsBefore : List (Data → Prop) :=
  [Takes (natural 64), Takes (natural 64), Takes (natural 64), Takes (natural 64),
   Takes (float Binary.double), Takes (list text), Takes (tally (natural 64)),
   Takes (tally mutatorCount)]

/-- The data that are read as the duration of a summary: everything in front of them was taken. -/
inductive DurationAt : Data → Data → Prop
  | member {front behind : List (Option String × Data)} {f : SummaryFields} (v : Data)
      (closed : Bool) (taken : members SummaryFields.step {} front = .ok f)
      (first : ∀ m ∈ front, m.1 ≠ some "duration") :
      DurationAt (.record (front ++ (some "duration", v) :: behind) closed) v
  | item {front behind : List Data} (v : Data) (closed : Bool)
      (taken : List.Forall₂ (fun takes d => takes d) fieldsBefore front) :
      DurationAt (.list (front ++ v :: behind) closed) v

section Listed

variable {α β : Type}

/-- Reading from a list that settles unless the fields are taken and the duration behind them does
not settle. -/
def Awaits (fields : List (Data → Prop)) (run : List Data → Decoded β) : Prop :=
  ∀ ds, Settled (run ds) ↔ ∀ front v behind, ds = front ++ v :: behind →
    List.Forall₂ (fun takes d => takes d) fields front → Settled (elapsed v)

theorem awaits_duration {more : Elapsed × List Data → Decoded β}
    (others : ∀ x, Settled (more x)) : Awaits [] fun ds => next elapsed ds >>= more := by
  intro ds
  cases ds with
  | nil =>
    apply iff_of_true settled_malformed
    intro front v behind split
    simp at split
  | cons d rest =>
    have settled : Settled (next elapsed (d :: rest) >>= more) ↔ Settled (elapsed d) := by
      rw [settled_bind_iff, next, settled_map_iff]
      exact and_iff_left fun x _ => others x
    rw [settled]
    constructor
    · intro ends front v behind split none
      cases none
      cases split
      exact ends
    · intro each
      exact each [] d rest rfl .nil

theorem awaits_next {decode : Data → Decoded α} {more : α × List Data → Decoded β}
    {fields : List (Data → Prop)} (settles : ∀ d, Settled (decode d))
    (others : ∀ a, Awaits fields fun ds => more (a, ds)) :
    Awaits (Takes decode :: fields) fun ds => next decode ds >>= more := by
  intro ds
  cases ds with
  | nil =>
    apply iff_of_true settled_malformed
    intro front v behind split
    simp at split
  | cons d rest =>
    cases decoded : decode d with
    | error e =>
      have first := settles d
      rw [decoded] at first
      -- The first field is not taken, so nothing is asked of the duration.
      have settled : Settled (next decode (d :: rest) >>= more) := by
        simp only [next, decoded]
        exact settled_error_iff.mpr (settled_error_iff.mp first)
      apply iff_of_true settled
      intro front v behind split taken
      cases taken with
      | cons takes _ =>
        obtain ⟨a, read⟩ := takes
        cases split
        rw [decoded] at read
        cases read
    | ok a =>
      have settled : Settled (next decode (d :: rest) >>= more) ↔ Settled (more (a, rest)) := by
        simp only [next, decoded]
        rfl
      rw [settled, others a rest]
      constructor
      · intro each front v behind split taken
        cases taken with
        | cons takes taken =>
          cases split
          exact each _ v behind rfl taken
      · intro each front v behind split taken
        exact each (d :: front) v behind (by rw [split, List.cons_append])
          (.cons ⟨a, decoded⟩ taken)

theorem awaits_summary (closed : Bool) :
    Awaits fieldsBefore fun ds => summary (.list ds closed) := by
  apply awaits_next (settled_natural 64)
  intro totalClasses
  apply awaits_next (settled_natural 64)
  intro totalMutations
  apply awaits_next (settled_natural 64)
  intro kept
  apply awaits_next (settled_natural 64)
  intro filtered
  apply awaits_next (settled_float Binary.double)
  intro rate
  apply awaits_next (settled_list settled_text)
  intro features
  apply awaits_next (settled_tally (settled_natural 64))
  intro byFilter
  apply awaits_next (settled_tally settled_mutatorCount)
  intro byMutator
  apply awaits_duration
  intro (duration, ds)
  apply settled_bind (settled_ended (closed && ds.isEmpty) ())
  exact fun _ => settled_ok _

end Listed

theorem settled_summary_iff {d : Data} :
    Settled (summary d) ↔ ∀ v, DurationAt d v → Settled (elapsed v) := by
  cases d with
  | record ms closed =>
    rw [settled_summary_record_iff]
    constructor
    · intro each v reached
      cases reached with
      | member _ _ taken first =>
        exact each _ v _ _ rfl taken ((duration_of_members taken).mpr ⟨rfl, first⟩)
    · intro each front v behind f split taken first
      subst split
      exact each v (.member v closed taken ((duration_of_members taken).mp first).2)
  | list ds closed =>
    rw [awaits_summary closed ds]
    constructor
    · intro each v reached
      cases reached with
      | item _ _ taken => exact each _ v _ rfl taken
    · intro each front v behind split taken
      subst split
      exact each v (.item v closed taken)
  | _ =>
    apply iff_of_true settled_malformed
    intro v reached
    cases reached

end Summaries

/-- A text is decoded to a duration, or refused for its shape, unless the number in it is none of a
span of time, and so is the text of a summary unless the number that is read as its duration is
such. Whatever follows the number makes no difference. -/
theorem durations_settled_iff (s : List Char) :
    (Settled (json elapsed s) ↔
      ∀ x, float Binary.double (Json.read s).1 = .ok x → x.Spans) ∧
    (Settled (json summary s) ↔
      ∀ v, DurationAt (Json.read s).1 v → ∀ x, float Binary.double v = .ok x → x.Spans) := by
  constructor
  · rw [settled_json_iff, settled_elapsed_iff]
  · rw [settled_json_iff, settled_summary_iff]
    simp only [settled_elapsed_iff]

/-- Neither a negative number nor one of `2 ^ 64` seconds is decoded or refused, and a summary with
such a duration is not either. So the text of the longest span of time is not read back. -/
theorem unspanned_breaks_off :
    ¬ Settled (json elapsed "-1".toList) ∧ ¬ Settled (json elapsed "18446744073709551616".toList) ∧
      ¬ Settled (json summary "[0,0,0,0,0,[],\x7b\x7d,\x7b\x7d,-1]".toList) ∧
      ¬ Settled (json elapsed
        (Elapsed.toJson ⟨Word.size 64 * Elapsed.perSecond - 1⟩).compact) := by
  have negative : json elapsed "-1".toList = .error .unrepresentable := by decide +kernel
  have large : json elapsed "18446744073709551616".toList = .error .unrepresentable := by
    decide +kernel
  have within : json summary "[0,0,0,0,0,[],\x7b\x7d,\x7b\x7d,-1]".toList =
      .error .unrepresentable := by decide +kernel
  have longest : json elapsed (Elapsed.toJson ⟨Word.size 64 * Elapsed.perSecond - 1⟩).compact =
      .error .unrepresentable := by decide +kernel
  rw [negative, large, within, longest]
  simp [settled_error_iff]

end Decode

end MutantSieve
