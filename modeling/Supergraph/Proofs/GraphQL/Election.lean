import Supergraph.GraphQL.TypeRef
import Supergraph.GraphQL.Value

/-!
This module contains the theory of elected types. Input and output position differ only in which
mark is preferred: the elected type is the first one with the preferred mark, if any declaration of
the same type has it.
-/

namespace Supergraph.GraphQL.TypeRef

namespace SameNullable

theorem refl (a : TypeRef) : a.SameNullable a := rfl

theorem symm {a b : TypeRef} (h : a.SameNullable b) : b.SameNullable a := Eq.symm h

theorem trans {a b c : TypeRef} (hab : a.SameNullable b) (hbc : b.SameNullable c) :
    a.SameNullable c :=
  Eq.trans hab hbc

theorem withNonNull (nonNull : Bool) (a : TypeRef) : a.SameNullable (a.withNonNull nonNull) := by
  unfold SameNullable toNullable
  rw [withNonNull_withNonNull]

theorem withNonNull_eq {a b : TypeRef} (nonNull : Bool) (h : a.SameNullable b) :
    a.withNonNull nonNull = b.withNonNull nonNull := by
  have := congrArg (TypeRef.withNonNull nonNull) h
  unfold toNullable at this
  rwa [withNonNull_withNonNull, withNonNull_withNonNull] at this

theorem eq {a b : TypeRef} (h : a.SameNullable b) (hmark : a.isNonNull = b.isNonNull) : a = b := by
  rw [← withNonNull_isNonNull a, ← withNonNull_isNonNull b, hmark]
  exact h.withNonNull_eq _

theorem baseName_eq {a b : TypeRef} (h : a.SameNullable b) : a.baseName = b.baseName := by
  have hbase : ∀ t : TypeRef, t.toNullable.baseName = t.baseName := by
    intro t
    cases t <;> rfl
  rw [← hbase a, h, hbase]

end SameNullable

def elect (preferred : Bool) (elected declared : TypeRef) : TypeRef :=
  if elected.SameNullable declared ∧ declared.isNonNull = preferred then declared else elected

def normalize (preferred : Bool) (merged declared : TypeRef) : TypeRef :=
  if merged.SameNullable declared ∧ merged.isNonNull = preferred then
    declared.withNonNull preferred
  else
    declared

theorem electInput_eq : electInput = elect true := rfl

theorem electOutput_eq : electOutput = elect false := by
  funext elected declared
  simp [electOutput, elect]

theorem normalizeInput_eq : normalizeInput = normalize true := rfl

theorem normalizeOutput_eq : normalizeOutput = normalize false := by
  funext merged declared
  simp [normalizeOutput, normalize, toNullable]

theorem elect_eq_withNonNull (preferred : Bool) (elected declared : TypeRef) :
    elect preferred elected declared
      =
    if elected.SameNullable declared ∧ declared.isNonNull = preferred then
      elected.withNonNull preferred
    else
      elected := by
  unfold elect
  split
  . next h =>
    rw [h.1.withNonNull_eq, ← h.2, withNonNull_isNonNull]
  . rfl

theorem elect_self (preferred : Bool) (t : TypeRef) : elect preferred t t = t := by
  simp [elect]

theorem sameNullable_normalize (preferred : Bool) (merged declared : TypeRef) :
    declared.SameNullable (normalize preferred merged declared) := by
  unfold normalize
  split
  . exact .withNonNull _ _
  . exact .refl _

def IsElected (preferred : Bool) (declared : List TypeRef) (t : TypeRef) : Prop :=
  ∃ first rest, declared = first :: rest ∧ t = rest.foldl (elect preferred) first

namespace IsElected

theorem single (preferred : Bool) (t : TypeRef) : IsElected preferred [t] t := ⟨t, [], rfl, rfl⟩

theorem append {preferred : Bool} {declared : List TypeRef} {t : TypeRef}
    (h : IsElected preferred declared t) (next : TypeRef)
    : IsElected preferred (declared ++ [next]) (elect preferred t next) := by
  obtain ⟨first, rest, rfl, rfl⟩ := h
  exact ⟨first, rest ++ [next], rfl, by rw [List.foldl_append]; rfl⟩

theorem unique {preferred : Bool} {declared : List TypeRef} {t t' : TypeRef}
    (h : IsElected preferred declared t) (h' : IsElected preferred declared t') : t = t' := by
  obtain ⟨first, rest, rfl, rfl⟩ := h
  obtain ⟨_, _, ⟨⟩, rfl⟩ := h'
  rfl

theorem exists_of_mem (preferred : Bool) {declared : List TypeRef} {d : TypeRef}
    (h : d ∈ declared) : ∃ t, IsElected preferred declared t := by
  cases declared with
  | nil => cases h
  | cons first rest => exact ⟨_, first, rest, rfl, rfl⟩

theorem foldl_eq (preferred : Bool) (first : TypeRef) (rest : List TypeRef) :
    rest.foldl (elect preferred) first
      =
    if ∃ d ∈ first :: rest, first.SameNullable d ∧ d.isNonNull = preferred then
      first.withNonNull preferred
    else
      first := by
  induction rest generalizing first with
  | nil =>
    by_cases h : first.isNonNull = preferred
    . have : first.withNonNull preferred = first := by rw [← h, withNonNull_isNonNull]
      simp [this]
    . simp [h]
  | cons next rest ih =>
    rw [List.foldl_cons, ih, elect_eq_withNonNull]
    by_cases hnext : first.SameNullable next ∧ next.isNonNull = preferred
    . -- From here on the elected type has the preferred mark and keeps it.
      rw [if_pos hnext, if_pos, if_pos, withNonNull_withNonNull]
      . exact ⟨next, by simp, hnext⟩
      . exact ⟨_, List.mem_cons_self, .refl _, isNonNull_withNonNull _ _⟩
    . have hiff : (∃ d ∈ first :: next :: rest, first.SameNullable d ∧ d.isNonNull = preferred)
          ↔ ∃ d ∈ first :: rest, first.SameNullable d ∧ d.isNonNull = preferred := by
        simp only [List.mem_cons, exists_eq_or_imp, hnext, false_or]
      simp only [hnext, if_false, hiff]

variable {preferred : Bool} {declared : List TypeRef} {t : TypeRef}

theorem sameNullable_iff (h : IsElected preferred declared t) (u : TypeRef) :
    t.SameNullable u ↔ ∃ first ∈ declared.head?, first.SameNullable u := by
  obtain ⟨first, rest, rfl, rfl⟩ := h
  have hfirst : first.SameNullable (rest.foldl (elect preferred) first) := by
    rw [foldl_eq]
    split
    . exact .withNonNull _ _
    . exact .refl _
  simp only [List.head?_cons, Option.mem_def, Option.some.injEq, exists_eq_left']
  exact ⟨hfirst.trans, hfirst.symm.trans⟩

theorem exists_sameNullable (h : IsElected preferred declared t) :
    ∃ d ∈ declared, d.SameNullable t := by
  obtain ⟨first, hfirst, hsame⟩ := (h.sameNullable_iff t).1 (.refl t)
  exact ⟨first, List.mem_of_mem_head? hfirst, hsame⟩

theorem sameNullable_of_all (h : IsElected preferred declared t)
    (hsame : ∀ a ∈ declared, ∀ b ∈ declared, a.SameNullable b)
    : ∀ d ∈ declared, t.SameNullable d := by
  intro d hd
  rw [h.sameNullable_iff]
  obtain ⟨first, rest, rfl, -⟩ := h
  exact ⟨first, rfl, hsame first (by simp) d hd⟩

theorem isNonNull_iff (h : IsElected preferred declared t) :
    t.isNonNull = preferred ↔ ∃ d ∈ declared, t.SameNullable d ∧ d.isNonNull = preferred := by
  have hsame := h.sameNullable_iff
  obtain ⟨first, rest, rfl, rfl⟩ := h
  simp only [hsame, List.head?_cons, Option.mem_def, Option.some.injEq, exists_eq_left']
  rw [foldl_eq]
  split
  . next hex => simpa using hex
  . next hex =>
    refine iff_of_false ?_ hex
    intro hfirst
    exact hex ⟨first, List.mem_cons_self, .refl _, hfirst⟩

theorem normalize_eq (h : IsElected preferred declared t) {a b : TypeRef} (ha : a ∈ declared)
    (hb : b ∈ declared) (hta : t.SameNullable a) (htb : t.SameNullable b)
    : normalize preferred t a = normalize preferred t b := by
  have hab := hta.symm.trans htb
  by_cases hmark : t.isNonNull = preferred
  . simp only [normalize, hta, htb, hmark, and_self, if_true]
    exact hab.withNonNull_eq _
  . simp only [normalize, hmark, and_false, if_false]
    -- No declaration has the preferred mark, so all of them have the other one.
    apply hab.eq
    rw [h.isNonNull_iff] at hmark
    have hother : ∀ d ∈ declared, t.SameNullable d → d.isNonNull = !preferred := by
      intro d hd hsame
      rw [Bool.eq_not]
      intro hd'
      exact hmark ⟨d, hd, hsame, hd'⟩
    rw [hother a ha hta, hother b hb htb]

theorem eq_of_mem_iff (h : IsElected preferred declared t) {declared' : List TypeRef}
    {t' : TypeRef} (h' : IsElected preferred declared' t')
    (hmem : ∀ d, d ∈ declared ↔ d ∈ declared')
    (hsame : ∀ a ∈ declared, ∀ b ∈ declared, a.SameNullable b)
    : t = t' := by
  obtain ⟨d, hd, hdt'⟩ := h'.exists_sameNullable
  have htt' : t.SameNullable t' := (h.sameNullable_of_all hsame d ((hmem d).2 hd)).trans hdt'
  have hmark : t.isNonNull = preferred ↔ t'.isNonNull = preferred := by
    rw [h.isNonNull_iff, h'.isNonNull_iff]
    apply exists_congr
    intro d
    rw [hmem]
    have hd : t.SameNullable d ↔ t'.SameNullable d := ⟨htt'.symm.trans, htt'.trans⟩
    rw [hd]
  apply htt'.eq
  by_cases ht : t.isNonNull = preferred
  . rw [ht, hmark.1 ht]
  . rw [Bool.eq_not.2 ht, Bool.eq_not.2 (mt hmark.2 ht)]

theorem normalize_eq_iff (h : IsElected preferred declared t) :
    (∀ a ∈ declared, ∀ b ∈ declared, normalize preferred t a = normalize preferred t b)
      ↔
    ∀ a ∈ declared, ∀ b ∈ declared, a.SameNullable b := by
  constructor
  . intro heq a ha b hb
    have hab := sameNullable_normalize preferred t a
    rw [heq a ha b hb] at hab
    exact hab.trans (sameNullable_normalize preferred t b).symm
  . intro hsame a ha b hb
    have ht := h.sameNullable_of_all hsame
    exact h.normalize_eq ha hb (ht a ha) (ht b hb)

theorem normalize_ne_of_append {others : List TypeRef} {t' : TypeRef}
    (h : IsElected preferred declared t) (h' : IsElected preferred (declared ++ others) t')
    {a b : TypeRef} (ha : a ∈ declared) (hb : b ∈ declared)
    (hne : normalize preferred t a ≠ normalize preferred t b)
    : normalize preferred t' a ≠ normalize preferred t' b := by
  have ht : t'.SameNullable t := by
    rw [h'.sameNullable_iff]
    obtain ⟨first, hfirst, hsame⟩ := (h.sameNullable_iff t).1 (.refl t)
    exact ⟨first, by rw [List.head?_append, hfirst]; rfl, hsame⟩
  by_cases hab : a.SameNullable b
  . by_cases hta : t.SameNullable a
    . exact absurd (h.normalize_eq ha hb hta (hta.trans hab)) hne
    . -- Neither is of the elected type, and both are left as they are.
      have hleft : ∀ u : TypeRef, u.SameNullable t →
          normalize preferred u a = a ∧ normalize preferred u b = b := by
        intro u hu
        have hua : ¬ u.SameNullable a := fun hua => hta (hu.symm.trans hua)
        have hub : ¬ u.SameNullable b := fun hub => hua (hub.trans hab.symm)
        simp only [normalize, hua, hub, false_and, if_false, and_self]
      rw [(hleft t' ht).1, (hleft t' ht).2]
      rwa [(hleft t (.refl t)).1, (hleft t (.refl t)).2] at hne
  . intro heq
    have hsame := sameNullable_normalize preferred t' a
    rw [heq] at hsame
    exact hab (hsame.trans (sameNullable_normalize preferred t' b).symm)

end IsElected

/--
Whether a value fits a type, given which values other than null the named types have.
-/
def Fits (has : Name → Value → Prop) : TypeRef → Value → Prop
  | .named name nonNull, v => if v = .null then nonNull = false else has name v
  | .list item nonNull, v =>
    if v = .null then nonNull = false
    else ∃ items, v = .list items ∧ ∀ i ∈ items, Fits has item i

theorem fits_iff (has : Name → Value → Prop) (t : TypeRef) (v : Value) :
    t.Fits has v ↔ t.toNullable.Fits has v ∧ (v = .null → ¬ t.isNonNull) := by
  by_cases hv : v = .null
  . cases t <;> simp [Fits, toNullable, withNonNull, isNonNull, hv]
  . cases t <;> simp [Fits, toNullable, withNonNull, hv]

theorem Fits.weaken {has : Name → Value → Prop} {t u : TypeRef} {v : Value}
    (hsame : t.SameNullable u) (hmark : u.isNonNull → t.isNonNull) (h : t.Fits has v)
    : u.Fits has v := by
  rw [fits_iff] at h ⊢
  rw [← hsame]
  exact ⟨h.1, fun hv hu => h.2 hv (hmark hu)⟩

/--
Whether a type can stand for all declared ones, in output or input position: it is of the same type,
no stronger a promise than any of them and no weaker a demand.
-/
structure Joins (output : Bool) (declared : List TypeRef) (t : TypeRef) : Prop where
  sameNullable : ∀ d ∈ declared, t.SameNullable d
  isNullable_iff : output → (¬ t.isNonNull ↔ ∃ d ∈ declared, ¬ d.isNonNull)
  isNonNull_iff : ¬ output → (t.isNonNull ↔ ∃ d ∈ declared, d.isNonNull)
  returned : output → ∀ has v, (∃ d ∈ declared, d.Fits has v) → t.Fits has v
  accepted : ¬ output → ∀ has v, t.Fits has v → ∀ d ∈ declared, d.Fits has v

theorem IsElected.joins {output : Bool} {declared : List TypeRef} {t : TypeRef}
    (h : IsElected (!output) declared t) (hsame : ∀ a ∈ declared, ∀ b ∈ declared, a.SameNullable b)
    : t.Joins output declared := by
  have ht := h.sameNullable_of_all hsame
  have hmark : t.isNonNull = (!output) ↔ ∃ d ∈ declared, d.isNonNull = (!output) := by
    rw [h.isNonNull_iff]
    constructor
    . rintro ⟨d, hd, -, hd'⟩
      exact ⟨d, hd, hd'⟩
    . rintro ⟨d, hd, hd'⟩
      exact ⟨d, hd, ht d hd, hd'⟩
  cases output with
  | true =>
    have hnullable : ¬ t.isNonNull ↔ ∃ d ∈ declared, ¬ d.isNonNull := by simpa using hmark
    refine ⟨ht, fun _ => hnullable, by simp, ?_, by simp⟩
    rintro - has v ⟨d, hd, hv⟩
    apply hv.weaken (ht d hd).symm
    intro hnonNull
    apply Decidable.by_contra
    intro hd'
    exact hnullable.2 ⟨d, hd, hd'⟩ hnonNull
  | false =>
    have hnonNull : t.isNonNull ↔ ∃ d ∈ declared, d.isNonNull := by simpa using hmark
    refine ⟨ht, by simp, fun _ => hnonNull, by simp, ?_⟩
    intro _ has v hv d hd
    exact hv.weaken (ht d hd) fun hd' => hnonNull.2 ⟨d, hd, hd'⟩

end Supergraph.GraphQL.TypeRef
