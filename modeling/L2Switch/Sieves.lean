import Mathlib.Data.List.Induction

/-!
A list read from the left where an item is dropped when one kept before hides it.
Hiding is reflexive and transitive, as containment of any kind is, so the items kept
are those that nothing before their place hides.
-/
namespace L2Switch.Sieves

universe u
variable {Item : Type u} (hides : Item → Item → Bool)

def keepNext (kept : List Item) (next : Item) : List Item :=
  if kept.any (hides · next) then kept else kept ++ [next]

def sieve (items : List Item) : List Item := items.foldl (keepNext hides) []

/-- The item stands somewhere in the list with nothing before it that hides it. -/
def Leads (items : List Item) (item : Item) : Prop :=
  ∃ before after, items = before ++ item :: after ∧ ∀ earlier ∈ before, hides earlier item = false

theorem sieve_append (items : List Item) (last : Item) :
    sieve hides (items ++ [last]) = keepNext hides (sieve hides items) last := by
  simp [sieve]

theorem mem_keepNext_iff (kept : List Item) (next item : Item) :
    item ∈ keepNext hides kept next ↔
      item ∈ kept ∨ (item = next ∧ kept.any (hides · next) = false) := by
  unfold keepNext
  cases hidden : kept.any (hides · next) with
  | true => simp
  | false => simp

theorem mem_of_mem_sieve (items : List Item) (item : Item) (kept : item ∈ sieve hides items) :
    item ∈ items := by
  induction items using List.reverseRecOn with
  | nil => exact kept
  | append_singleton earlier last ih =>
      rw [sieve_append, mem_keepNext_iff] at kept
      rcases kept with before | ⟨rfl, _⟩
      · exact List.mem_append_left [last] (ih before)
      · exact List.mem_append_right earlier (List.mem_singleton_self item)

theorem leads_append_iff (items : List Item) (last item : Item) :
    Leads hides (items ++ [last]) item ↔
      Leads hides items item ∨ (item = last ∧ ∀ earlier ∈ items, hides earlier item = false) := by
  constructor
  · rintro ⟨before, after, split, unhidden⟩
    induction after using List.reverseRecOn with
    | nil =>
        obtain ⟨rfl, same⟩ := List.append_inj' split rfl
        exact Or.inr ⟨(List.singleton_inj.mp same).symm, unhidden⟩
    | append_singleton rest final _ =>
        rw [← List.cons_append, ← List.append_assoc] at split
        obtain ⟨rfl, _⟩ := List.append_inj' split rfl
        exact Or.inl ⟨before, rest, rfl, unhidden⟩
  · rintro (⟨before, after, rfl, unhidden⟩ | ⟨rfl, unhidden⟩)
    · exact ⟨before, after ++ [last], by simp, unhidden⟩
    · exact ⟨items, [], rfl, unhidden⟩

theorem sieve_nodup (refl : ∀ item, hides item item = true) (items : List Item) :
    (sieve hides items).Nodup := by
  induction items using List.reverseRecOn with
  | nil => exact List.nodup_nil
  | append_singleton earlier last ih =>
      rw [sieve_append, keepNext]
      by_cases hidden : (sieve hides earlier).any (hides · last) = true
      · rwa [if_pos hidden]
      · have absent : last ∉ sieve hides earlier := fun member =>
          hidden (List.any_eq_true.mpr ⟨last, member, refl last⟩)
        rw [if_neg hidden]
        exact (List.perm_append_singleton last _).nodup_iff.mpr (List.nodup_cons.mpr ⟨absent, ih⟩)

section Containment
variable (trans : ∀ first second third, hides first second = true → hides second third = true →
  hides first third = true)
include trans

/-- What any item of the list hides, some kept item hides. -/
theorem sieve_hides_iff (items : List Item) (item : Item) :
    (∃ kept ∈ sieve hides items, hides kept item = true) ↔
      ∃ earlier ∈ items, hides earlier item = true := by
  constructor
  · rintro ⟨kept, member, hidden⟩
    exact ⟨kept, mem_of_mem_sieve hides items kept member, hidden⟩
  · intro listed
    induction items using List.reverseRecOn with
    | nil => simp at listed
    | append_singleton earlier last ih =>
        rcases listed with ⟨found, member, hidesItem⟩
        simp only [sieve_append, mem_keepNext_iff]
        rcases List.mem_append.mp member with before | latest
        · rcases ih ⟨found, before, hidesItem⟩ with ⟨kept, inside, overItem⟩
          exact ⟨kept, Or.inl inside, overItem⟩
        · rw [List.mem_singleton.mp latest] at hidesItem
          cases hidden : (sieve hides earlier).any (hides · last) with
          | false => exact ⟨last, Or.inr ⟨rfl, rfl⟩, hidesItem⟩
          | true =>
              -- the item that hid the last one hides what it would have hidden
              rcases List.any_eq_true.mp hidden with ⟨kept, inside, overLast⟩
              exact ⟨kept, Or.inl inside, trans _ _ _ overLast hidesItem⟩

/-- The next item is kept exactly when nothing before it hides it, kept or not. -/
theorem unhidden_iff (items : List Item) (next : Item) :
    (sieve hides items).any (hides · next) = false ↔
      ∀ earlier ∈ items, hides earlier next = false := by
  rw [← Bool.not_eq_true, List.any_eq_true, sieve_hides_iff hides trans]
  simp

/-- The items kept are those that nothing before their place hides. -/
theorem mem_sieve_iff (items : List Item) (item : Item) :
    item ∈ sieve hides items ↔ Leads hides items item := by
  induction items using List.reverseRecOn with
  | nil => simp [sieve, Leads]
  | append_singleton earlier last ih =>
      rw [sieve_append, mem_keepNext_iff, leads_append_iff, ih]
      apply or_congr_right
      apply and_congr_right
      rintro rfl
      exact unhidden_iff hides trans earlier item

end Containment
end L2Switch.Sieves
