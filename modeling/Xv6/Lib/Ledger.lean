import Mathlib

/-! Ownership of a pool of equal units (blocks, pages). Every unit of the pool is
free, or owned by exactly one owner, or loose: taken from the free units and not
yet given to an owner, or taken from its owner and not yet freed. -/

structure Ledger {ω β : Type} (pool free : β → Prop) (owns : ω → β → Prop) (loose : List β) : Prop where
  total : ∀ b, pool b → free b ∨ b ∈ loose ∨ ∃ o, owns o b
  owned : ∀ o b, owns o b → pool b ∧ ¬ free b
  single : ∀ o o' b, owns o b → owns o' b → o = o'
  loose_pool : ∀ b ∈ loose, pool b ∧ ¬ free b
  loose_owned : ∀ b ∈ loose, ∀ o, ¬ owns o b
  nodup : loose.Nodup

namespace Ledger

variable {ω β : Type} {pool free free' : β → Prop} {owns owns' : ω → β → Prop} {loose : List β} {b : β}

lemma congr (h : Ledger pool free owns loose) (hf : ∀ b, pool b → (free' b ↔ free b))
    (ho : ∀ o b, owns' o b ↔ owns o b) : Ledger pool free' owns' loose where
  total := fun b hb => by
    rcases h.total b hb with hh | hh | ⟨o, hh⟩
    · exact .inl ((hf b hb).mpr hh)
    · exact .inr (.inl hh)
    · exact .inr (.inr ⟨o, (ho o b).mpr hh⟩)
  owned := fun o b hb => by
    obtain ⟨hp, hn⟩ := h.owned o b ((ho o b).mp hb)
    exact ⟨hp, fun hh => hn ((hf b hp).mp hh)⟩
  single := fun o o' b hb hb' => h.single o o' b ((ho o b).mp hb) ((ho o' b).mp hb')
  loose_pool := fun b hb => by
    obtain ⟨hp, hn⟩ := h.loose_pool b hb
    exact ⟨hp, fun hh => hn ((hf b hp).mp hh)⟩
  loose_owned := fun b hb o hh => h.loose_owned b hb o ((ho o b).mp hh)
  nodup := h.nodup

lemma take (h : Ledger pool free owns loose) (hp : pool b) (hb : free b)
    (hf : ∀ x, pool x → (free' x ↔ free x ∧ x ≠ b)) : Ledger pool free' owns (b :: loose) where
  total := fun x hx => by
    by_cases hxb : x = b
    · exact .inr (.inl (by simp [hxb]))
    · rcases h.total x hx with hh | hh | hh
      · exact .inl ((hf x hx).mpr ⟨hh, hxb⟩)
      · exact .inr (.inl (List.mem_cons_of_mem _ hh))
      · exact .inr (.inr hh)
  owned := fun o x hx => by
    obtain ⟨hpx, hn⟩ := h.owned o x hx
    exact ⟨hpx, fun hh => hn ((hf x hpx).mp hh).1⟩
  single := h.single
  loose_pool := fun x hx => by
    rcases List.mem_cons.mp hx with rfl | hx
    · exact ⟨hp, fun hh => ((hf x hp).mp hh).2 rfl⟩
    · obtain ⟨hpx, hn⟩ := h.loose_pool x hx
      exact ⟨hpx, fun hh => hn ((hf x hpx).mp hh).1⟩
  loose_owned := fun x hx o ho => by
    rcases List.mem_cons.mp hx with rfl | hx
    · exact (h.owned o x ho).2 hb
    · exact h.loose_owned x hx o ho
  nodup := List.nodup_cons.mpr ⟨fun hh => (h.loose_pool b hh).2 hb, h.nodup⟩

lemma release (h : Ledger pool free owns (b :: loose))
    (hf : ∀ x, pool x → (free' x ↔ free x ∨ x = b)) : Ledger pool free' owns loose where
  total := fun x hx => by
    rcases h.total x hx with hh | hh | hh
    · exact .inl ((hf x hx).mpr (.inl hh))
    · rcases List.mem_cons.mp hh with rfl | hh
      · exact .inl ((hf x hx).mpr (.inr rfl))
      · exact .inr (.inl hh)
    · exact .inr (.inr hh)
  owned := fun o x hx => by
    obtain ⟨hpx, hn⟩ := h.owned o x hx
    refine ⟨hpx, fun hh => ?_⟩
    rcases (hf x hpx).mp hh with hh | rfl
    · exact hn hh
    · exact h.loose_owned x List.mem_cons_self o hx
  single := h.single
  loose_pool := fun x hx => by
    obtain ⟨hpx, hn⟩ := h.loose_pool x (List.mem_cons_of_mem _ hx)
    refine ⟨hpx, fun hh => ?_⟩
    rcases (hf x hpx).mp hh with hh | rfl
    · exact hn hh
    · exact (List.nodup_cons.mp h.nodup).1 hx
  loose_owned := fun x hx => h.loose_owned x (List.mem_cons_of_mem _ hx)
  nodup := (List.nodup_cons.mp h.nodup).2

lemma give (h : Ledger pool free owns (b :: loose)) (o : ω)
    (ho : ∀ o' x, owns' o' x ↔ owns o' x ∨ (o' = o ∧ x = b)) : Ledger pool free owns' loose where
  total := fun x hx => by
    rcases h.total x hx with hh | hh | ⟨o', hh⟩
    · exact .inl hh
    · rcases List.mem_cons.mp hh with rfl | hh
      · exact .inr (.inr ⟨o, (ho o x).mpr (.inr ⟨rfl, rfl⟩)⟩)
      · exact .inr (.inl hh)
    · exact .inr (.inr ⟨o', (ho o' x).mpr (.inl hh)⟩)
  owned := fun o' x hx => by
    rcases (ho o' x).mp hx with hh | ⟨-, rfl⟩
    · exact h.owned o' x hh
    · exact h.loose_pool x List.mem_cons_self
  single := fun o' o'' x hx hx' => by
    rcases (ho o' x).mp hx with hh | ⟨rfl, rfl⟩
    · rcases (ho o'' x).mp hx' with hh' | ⟨-, rfl⟩
      · exact h.single o' o'' x hh hh'
      · exact absurd hh (h.loose_owned x List.mem_cons_self o')
    · rcases (ho o'' x).mp hx' with hh' | ⟨rfl, -⟩
      · exact absurd hh' (h.loose_owned x List.mem_cons_self o'')
      · rfl
  loose_pool := fun x hx => h.loose_pool x (List.mem_cons_of_mem _ hx)
  loose_owned := fun x hx o' hh => by
    rcases (ho o' x).mp hh with hh | ⟨-, rfl⟩
    · exact h.loose_owned x (List.mem_cons_of_mem _ hx) o' hh
    · exact (List.nodup_cons.mp h.nodup).1 hx
  nodup := (List.nodup_cons.mp h.nodup).2

lemma drop {out : List β} (h : Ledger pool free owns loose) (gone : ω → Prop) (hn : out.Nodup)
    (hout : ∀ x, x ∈ out ↔ ∃ o, gone o ∧ owns o x) (ho : ∀ o x, owns' o x ↔ owns o x ∧ ¬ gone o) :
    Ledger pool free owns' (out ++ loose) where
  total := fun x hx => by
    rcases h.total x hx with hh | hh | ⟨o, hh⟩
    · exact .inl hh
    · exact .inr (.inl (List.mem_append_right _ hh))
    · by_cases hg : gone o
      · exact .inr (.inl (List.mem_append_left _ ((hout x).mpr ⟨o, hg, hh⟩)))
      · exact .inr (.inr ⟨o, (ho o x).mpr ⟨hh, hg⟩⟩)
  owned := fun o x hx => h.owned o x ((ho o x).mp hx).1
  single := fun o o' x hx hx' => h.single o o' x ((ho o x).mp hx).1 ((ho o' x).mp hx').1
  loose_pool := fun x hx => by
    rcases List.mem_append.mp hx with hx | hx
    · obtain ⟨o, -, hh⟩ := (hout x).mp hx
      exact h.owned o x hh
    · exact h.loose_pool x hx
  loose_owned := fun x hx o hh => by
    obtain ⟨hh, hg⟩ := (ho o x).mp hh
    rcases List.mem_append.mp hx with hx | hx
    · obtain ⟨o', hg', hh'⟩ := (hout x).mp hx
      exact hg (h.single o o' x hh hh' ▸ hg')
    · exact h.loose_owned x hx o hh
  nodup := by
    refine List.nodup_append.mpr ⟨hn, h.nodup, ?_⟩
    rintro x hx y hy rfl
    obtain ⟨o, -, hh⟩ := (hout x).mp hx
    exact h.loose_owned x hy o hh

end Ledger
