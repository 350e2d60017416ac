import MutantSieve.Proofs.Verdict

/-!
# What a verdict looks at

From an instruction of a method body the four families look back at two instructions, and at nothing
else. So two mutations of one mutator get the same verdict wherever these two agree, in any two
classes, and a body can grow at its end or in front of the two without a change to the verdict.
-/

set_option autoImplicit false

namespace MutantSieve

def lookBack (body : List Instruction) (i distance : Nat) : Option Instruction :=
  if distance ≤ i then body[i - distance]? else none

/-- The same stands one and two places before two places, or nothing does. -/
structure AgreeBefore (a : List Instruction) (i : Nat) (b : List Instruction) (j : Nat) :
    Prop where
  one : lookBack a i 1 = lookBack b j 1
  two : lookBack a i 2 = lookBack b j 2

section Bodies

variable {a b : List Instruction} {i j : Nat}

theorem back_eq_lookBack (inside : i < a.length) (distance : Nat) :
    (Window.mk a i).back distance = lookBack a i distance := by
  simp [Window.back, Window.current, lookBack, inside]

theorem lookBack_append (inside : i < a.length) (behind : List Instruction) (distance : Nat) :
    lookBack (a ++ behind) i distance = lookBack a i distance := by
  have reached : i - distance < a.length := by omega
  simp only [lookBack, List.getElem?_append_left reached]

theorem lookBack_insert {front rest : List Instruction} {distance : Nat}
    (far : front.length + distance ≤ i) (new : List Instruction) :
    lookBack (front ++ new ++ rest) (i + new.length) distance =
      lookBack (front ++ rest) i distance := by
  have moved : (front ++ new).length ≤ i + new.length - distance := by
    rw [List.length_append]
    omega
  have same : i + new.length - distance - (front ++ new).length =
      i - distance - front.length := by
    rw [List.length_append]
    omega
  rw [lookBack, lookBack, if_pos (by omega), if_pos (by omega), List.getElem?_append_right moved,
    List.getElem?_append_right (by omega), same]

theorem agreeBefore_append (inside : i < a.length) (behind : List Instruction) :
    AgreeBefore a i (a ++ behind) i :=
  ⟨(lookBack_append inside behind 1).symm, (lookBack_append inside behind 2).symm⟩

theorem agreeBefore_insert {front rest : List Instruction} (far : front.length + 2 ≤ i)
    (new : List Instruction) :
    AgreeBefore (front ++ rest) i (front ++ new ++ rest) (i + new.length) :=
  ⟨(lookBack_insert (by omega) new).symm, (lookBack_insert far new).symm⟩

theorem Pattern.found_congr (one : (Window.mk a i).back 1 = (Window.mk b j).back 1)
    (two : (Window.mk a i).back 2 = (Window.mk b j).back 2) (p : Pattern) :
    p.found ⟨a, i⟩ = p.found ⟨b, j⟩ := by
  cases p with
  | primitiveZero => rw [found, found, Window.zeroBack, Window.zeroBack, one]
  | hardcodedTrue =>
    simp only [found, Window.carriesBack, Window.valueOfBack, one, two]
  | nullReturn => rw [found, found, Window.carriesBack, Window.carriesBack, one]
  | emptyReturn =>
    simp only [found, Window.valueOfBack, Window.zeroBack, Window.emptyStringBack,
      Window.emptyFactoryBack, Window.callBack, one, two]

end Bodies

theorem verdictOn_of_resolved {c : ClassTree} {m : Mutation} {f : Method}
    (found : c.resolve m.id.location = .ok f) :
    equivalentReturns.verdictOn c m =
      .ok ((Pattern.all.find? fun p => p.accepts m.id.mutator &&
        p.found ⟨f.instructions, m.id.index.toNat⟩).map Pattern.name) :=
  Interceptor.firstFilter_patterns_ok found Pattern.all

/-- The verdict sees two instructions. Mutations of one mutator, at places of the bodies of two
methods in any two classes, get the same verdict if the same stands one and two places before the
places, or nothing does. In particular they do if the second body is the first one with more behind
it, and if it is the first one with more put in front of the two instructions and the place is moved
along. -/
theorem verdict_by_two_before {c c' : ClassTree} {m m' : Mutation} {f f' : Method}
    (declared : c.resolve m.id.location = .ok f) (declared' : c'.resolve m'.id.location = .ok f')
    (mutators : m.id.mutator = m'.id.mutator)
    (inside : m.id.index.toNat < f.instructions.length)
    (inside' : m'.id.index.toNat < f'.instructions.length) :
    (AgreeBefore f.instructions m.id.index.toNat f'.instructions m'.id.index.toNat →
      ∃ v, equivalentReturns.verdictOn c m = .ok v ∧ equivalentReturns.verdictOn c' m' = .ok v) ∧
    (∀ behind, f'.instructions = f.instructions ++ behind → m'.id.index = m.id.index →
      equivalentReturns.verdictOn c' m' = equivalentReturns.verdictOn c m) ∧
    ∀ front new rest, f.instructions = front ++ rest → f'.instructions = front ++ new ++ rest →
      front.length + 2 ≤ m.id.index.toNat →
      m'.id.index.toNat = m.id.index.toNat + new.length →
        equivalentReturns.verdictOn c' m' = equivalentReturns.verdictOn c m := by
  have agreed (agree : AgreeBefore f.instructions m.id.index.toNat f'.instructions
      m'.id.index.toNat) :
      equivalentReturns.verdictOn c' m' = equivalentReturns.verdictOn c m := by
    have one := agree.one
    have two := agree.two
    rw [← back_eq_lookBack inside, ← back_eq_lookBack inside'] at one two
    have same := Pattern.found_congr one two
    simp only [verdictOn_of_resolved declared, verdictOn_of_resolved declared', mutators, same]
  refine ⟨?_, ?_, ?_⟩
  · intro agree
    have verdict := verdictOn_of_resolved declared
    exact ⟨_, verdict, (agreed agree).trans verdict⟩
  · intro behind longer index
    apply agreed
    rw [longer, index]
    exact agreeBefore_append inside behind
  · intro front new rest body body' far index
    apply agreed
    rw [body, body', index]
    exact agreeBefore_insert far new

def boxing : List Instruction :=
  [.plain .iconst1, .staticCall "java/lang/Boolean" "valueOf" "(Z)Ljava/lang/Boolean;"]

def boxer : Method :=
  ⟨⟨"com/example/Sample", "value", "()Ljava/lang/Boolean;"⟩, boxing ++ [.plain .areturn]⟩

def lateBoxer : Method :=
  ⟨⟨"com/example/Other", "find", "(I)I"⟩, .label 0 :: boxing ++ [.plain .pop, .plain .ireturn]⟩

def boxerClass : ClassTree :=
  ⟨"com/example/Sample", [boxer], [(boxer.location, 0)], by decide +kernel⟩

def lateBoxerClass : ClassTree :=
  ⟨"com/example/Other", [lateBoxer], [(lateBoxer.location, 0)], by decide +kernel⟩

/-- The two classes have nothing in common but the two instructions, and so the verdict. -/
theorem lateBoxer_verdict :
    equivalentReturns.verdictOn boxerClass { id := ⟨boxer.location, 2, .trueReturns⟩ } =
        .ok (some "hardcoded_true") ∧
      AgreeBefore boxer.instructions 2 lateBoxer.instructions 3 ∧
      equivalentReturns.verdictOn lateBoxerClass { id := ⟨lateBoxer.location, 3, .trueReturns⟩ } =
        .ok (some "hardcoded_true") := by
  have agree : AgreeBefore boxer.instructions 2 lateBoxer.instructions 3 := ⟨rfl, rfl⟩
  have declared : boxerClass.resolve boxer.location = .ok boxer := rfl
  have declared' : lateBoxerClass.resolve lateBoxer.location = .ok lateBoxer := rfl
  have verdict : equivalentReturns.verdictOn boxerClass
      { id := ⟨boxer.location, 2, .trueReturns⟩ } = .ok (some "hardcoded_true") := rfl
  obtain ⟨v, here, there⟩ :=
    (@verdict_by_two_before boxerClass lateBoxerClass { id := ⟨boxer.location, 2, .trueReturns⟩ }
      { id := ⟨lateBoxer.location, 3, .trueReturns⟩ } boxer lateBoxer declared declared' rfl
      (by decide) (by decide)).1 agree
  rw [verdict] at here
  rw [← here] at there
  exact ⟨verdict, agree, there⟩

end MutantSieve
