import Mathlib.Order.Defs.Unbundled
import RowEngine.Id
import RowEngine.Storage.Index

/-!
Indexes whose keys ascend. They have each key once, so that looking a key up, placing an
entry and counting entries are about the set of entries alone; placing an entry and
dropping entries keep the order.
-/
namespace RowEngine

instance : IsStrictTotalOrder TableId (· < ·) where
  irrefl a := UInt64.lt_irrefl a.number
  trans _ _ _ := UInt64.lt_trans
  trichotomous a b hab hba := by
    obtain ⟨a⟩ := a
    obtain ⟨b⟩ := b
    exact congrArg TableId.mk (UInt64.le_antisymm (UInt64.not_lt.mp hba) (UInt64.not_lt.mp hab))

/-- Pages are ordered by table and then by number. -/
theorem PageId.lt_iff (a b : PageId) :
    a < b ↔ a.table < b.table ∨ a.table = b.table ∧ a.number < b.number := Iff.rfl

instance : IsStrictTotalOrder PageId (· < ·) where
  irrefl a h := by
    rcases (PageId.lt_iff a a).mp h with hlt | ⟨_, hlt⟩
    · exact irrefl_of (· < ·) a.table hlt
    · exact UInt32.lt_irrefl a.number hlt
  trans a b c hab hbc := by
    apply (PageId.lt_iff a c).mpr
    rcases (PageId.lt_iff a b).mp hab with hab | ⟨htable, hab⟩
    · rcases (PageId.lt_iff b c).mp hbc with hbc | ⟨htable', _⟩
      · exact .inl (trans_of (· < ·) hab hbc)
      · exact .inl (htable' ▸ hab)
    · rcases (PageId.lt_iff b c).mp hbc with hbc | ⟨htable', hbc⟩
      · exact .inl (htable ▸ hbc)
      · exact .inr ⟨htable.trans htable', UInt32.lt_trans hab hbc⟩
  trichotomous a b hab hba := by
    obtain ⟨s, m⟩ := a
    obtain ⟨t, n⟩ := b
    rw [PageId.lt_iff, not_or] at hab hba
    obtain rfl : s = t := Std.Trichotomous.trichotomous s t hab.1 hba.1
    have hmn : m = n := UInt32.le_antisymm
      (UInt32.not_lt.mp fun h => hba.2 ⟨rfl, h⟩) (UInt32.not_lt.mp fun h => hab.2 ⟨rfl, h⟩)
    rw [hmn]

namespace Index

variable {κ α : Type} [LT κ]

/-- The keys of the index ascend. -/
def Ascending (m : Index κ α) : Prop := m.entries.Pairwise fun e e' => e.1 < e'.1

theorem ascending_empty : (empty : Index κ α).Ascending := List.Pairwise.nil

theorem Ascending.filterMap {m : Index κ α} (h : m.Ascending) (f : α → Option α) :
    (m.filterMap f).Ascending := by
  refine List.Pairwise.filterMap _ ?_ (show m.entries.Pairwise _ from h)
  intro e e' hlt b hb b' hb'
  obtain ⟨a, _, rfl⟩ := Option.map_eq_some_iff.mp hb
  obtain ⟨a', _, rfl⟩ := Option.map_eq_some_iff.mp hb'
  exact hlt

omit [LT κ] in
theorem mem_filterMap {m : Index κ α} {f : α → Option α} {k : κ} {a : α} :
    (k, a) ∈ (m.filterMap f).entries ↔ ∃ b, (k, b) ∈ m.entries ∧ f b = some a := by
  constructor
  · intro h
    obtain ⟨e, he, hmap⟩ := List.mem_filterMap.mp h
    obtain ⟨b, hb, heq⟩ := Option.map_eq_some_iff.mp hmap
    obtain ⟨rfl, rfl⟩ := Prod.mk.inj heq
    exact ⟨e.2, he, hb⟩
  · rintro ⟨b, hmem, hb⟩
    exact List.mem_filterMap.mpr ⟨(k, b), hmem, by simp [hb]⟩

variable [IsStrictTotalOrder κ (· < ·)]

theorem Ascending.nodup_keys {m : Index κ α} (h : m.Ascending) : m.keys.Nodup := by
  refine List.Pairwise.map _ ?_ h
  rintro e e' hlt heq
  exact irrefl_of (· < ·) e'.1 (heq ▸ hlt)

variable [DecidableEq κ]

/-- What is found is what is there. -/
theorem seek_eq_some_iff {es : List (κ × α)} (h : es.Pairwise fun e e' => e.1 < e'.1) {k : κ}
    {a : α} : seek k es = some a ↔ (k, a) ∈ es := by
  induction es with
  | nil => simp [seek]
  | cons e rest ih =>
    obtain ⟨hfirst, hrest⟩ := List.pairwise_cons.mp h
    by_cases hk : k = e.1
    · subst hk
      have hnone : (e.1, a) ∉ rest := fun hmem => irrefl_of (· < ·) e.1 (hfirst (e.1, a) hmem)
      simp [seek, hnone, Prod.ext_iff, eq_comm]
    · have hne : (k, a) ≠ e := fun heq => hk (congrArg Prod.fst heq)
      simp [seek, hk, hne, ih hrest]

theorem Ascending.find?_eq_some_iff {m : Index κ α} (h : m.Ascending) {k : κ} {a : α} :
    m.find? k = some a ↔ (k, a) ∈ m.entries := seek_eq_some_iff h

variable [DecidableLT κ]

theorem mem_place {es : List (κ × α)} (h : es.Pairwise fun e e' => e.1 < e'.1) {k : κ} {a : α}
    {e : κ × α} : e ∈ place k a es ↔ e = (k, a) ∨ e.1 ≠ k ∧ e ∈ es := by
  induction es with
  | nil => simp [place]
  | cons f rest ih =>
    obtain ⟨hfirst, hrest⟩ := List.pairwise_cons.mp h
    have hlater (g : κ × α) (hg : g ∈ rest) : g.1 ≠ f.1 := fun heq =>
      irrefl_of (· < ·) f.1 (heq ▸ hfirst g hg)
    by_cases hk : k = f.1
    · subst hk
      grind [place]
    · by_cases hlt : k < f.1
      · have hafter (g : κ × α) (hg : g ∈ rest) : g.1 ≠ k := fun heq =>
          irrefl_of (· < ·) k (trans_of (· < ·) hlt (heq ▸ hfirst g hg))
        grind [place]
      · simp only [place, if_neg hk, if_neg hlt, List.mem_cons, ih hrest]
        grind

theorem pairwise_place {es : List (κ × α)} (h : es.Pairwise fun e e' => e.1 < e'.1) (k : κ)
    (a : α) : (place k a es).Pairwise fun e e' => e.1 < e'.1 := by
  induction es with
  | nil => simp [place]
  | cons f rest ih =>
    obtain ⟨hfirst, hrest⟩ := List.pairwise_cons.mp h
    by_cases hk : k = f.1
    · subst hk
      rw [place, if_pos rfl]
      exact List.pairwise_cons.mpr ⟨hfirst, hrest⟩
    · by_cases hlt : k < f.1
      · rw [place, if_neg hk, if_pos hlt]
        refine List.pairwise_cons.mpr ⟨fun g hg => ?_, h⟩
        rcases List.mem_cons.mp hg with rfl | hg
        · exact hlt
        · exact trans_of (· < ·) hlt (hfirst g hg)
      · rw [place, if_neg hk, if_neg hlt]
        refine List.pairwise_cons.mpr ⟨fun g hg => ?_, ih hrest⟩
        rcases (mem_place hrest).mp hg with rfl | ⟨_, hg⟩
        · exact (trichotomous_of (· < ·) k f.1).resolve_left hlt |>.resolve_left hk
        · exact hfirst g hg

theorem length_place {es : List (κ × α)} (h : es.Pairwise fun e e' => e.1 < e'.1) (k : κ)
    (a : α) :
    (place k a es).length = if (seek k es).isSome then es.length else es.length + 1 := by
  induction es with
  | nil => simp [place, seek]
  | cons f rest ih =>
    obtain ⟨hfirst, hrest⟩ := List.pairwise_cons.mp h
    by_cases hk : k = f.1
    · simp [place, seek, hk]
    · by_cases hlt : k < f.1
      · have hnone : seek k rest = none := by
          cases hseek : seek k rest with
          | none => rfl
          | some b =>
            have hmem := hfirst _ ((seek_eq_some_iff hrest).mp hseek)
            exact absurd (trans_of (· < ·) hlt hmem) (irrefl_of (· < ·) k)
        simp [place, seek, hk, hlt, hnone]
      · simp only [place, seek, if_neg hk, if_neg hlt, List.length_cons, ih hrest]
        split <;> rfl

namespace Ascending

variable {m : Index κ α} (h : m.Ascending)

include h

theorem insert (k : κ) (a : α) : (m.insert k a).Ascending := pairwise_place h k a

theorem mem_insert {k : κ} {a : α} {e : κ × α} :
    e ∈ (m.insert k a).entries ↔ e = (k, a) ∨ e.1 ≠ k ∧ e ∈ m.entries := mem_place h

theorem size_insert (k : κ) (a : α) :
    (m.insert k a).size = if m.contains k then m.size else m.size + 1 := length_place h k a

end Ascending

end Index

end RowEngine
