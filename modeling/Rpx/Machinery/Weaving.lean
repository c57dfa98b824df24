import Mathlib.Tactic

/-!
# Machinery/Weaving — one stream written by many sources

    log   =  (k₀, c₀), (k₁, c₁), …          part k log ++ (what the source of k has left)  =  k-th whole

A stream is written piece by piece, each piece being the next one of some whole: `log` says which.
`part k log` is what there is of the `k`-th.  A source `s` with `left s k rest` is at work on the `k`-th
whole and has `rest` left of it; sources start (`Woven.start`), write (`Woven.write`) and stop
(`Woven.mono`), any number of them at a time, and the stream is always a weave of prefixes of the wholes.
-/

namespace Machinery

variable {α σ : Type*}

/-- What the log says was written. -/
def stream (log : List (ℕ × List α)) : List α := log.flatMap Prod.snd

/-- …and what of it was of the `k`-th whole. -/
def part (k : ℕ) (log : List (ℕ × List α)) : List α := (log.filter fun e => e.1 = k).flatMap Prod.snd

theorem stream_concat (log : List (ℕ × List α)) (j : ℕ) (c : List α) :
    stream (log ++ [(j, c)]) = stream log ++ c := by
  simp [stream]

theorem part_concat (k : ℕ) (log : List (ℕ × List α)) (j : ℕ) (c : List α) :
    part k (log ++ [(j, c)]) = part k log ++ if j = k then c else [] := by
  rw [part, List.filter_append, List.flatMap_append]
  split
  · rename_i h
    simp [part, h]
  · rename_i h
    simp [part, h]

/-- A piece with nothing in it. -/
theorem part_concat_nil (k : ℕ) (log : List (ℕ × List α)) (j : ℕ) :
    part k (log ++ [(j, [])]) = part k log := by
  rw [part_concat]
  split <;> exact List.append_nil _

/-- **The stream is a weave of prefixes of the wholes**, and no two sources are at work on one whole. -/
structure Woven (wholes : List (List α)) (log : List (ℕ × List α)) (left : σ → ℕ → List α → Prop) :
    Prop where
  prefixes : ∀ k, part k log <+: wholes.getD k []
  lasts : ∀ s k rest, left s k rest → k < wholes.length ∧ part k log ++ rest = wholes.getD k []
  apart : ∀ s s' k rest rest', left s k rest → left s' k rest' → s = s'

variable {wholes : List (List α)} {log : List (ℕ × List α)} {left left' : σ → ℕ → List α → Prop}

theorem woven_nil (hleft : ∀ s k rest, ¬ left s k rest) : Woven ([] : List (List α)) [] left :=
  ⟨fun _ => List.prefix_refl [], fun s k rest h => absurd h (hleft s k rest),
    fun s _ k rest _ h => absurd h (hleft s k rest)⟩

/-- **Sources stop.** -/
theorem Woven.mono (h : Woven wholes log left) (hleft : ∀ s k rest, left' s k rest → left s k rest) :
    Woven wholes log left' :=
  ⟨h.prefixes, fun s k rest hs => h.lasts s k rest (hleft s k rest hs),
    fun s s' k rest rest' hs hs' => h.apart s s' k rest rest' (hleft _ _ _ hs) (hleft _ _ _ hs')⟩

/-- A piece with nothing in it may be of any whole. -/
theorem Woven.silent (h : Woven wholes log left) (j : ℕ) : Woven wholes (log ++ [(j, [])]) left := by
  refine ⟨fun k => ?_, fun s k rest hs => ?_, h.apart⟩
  · rw [part_concat_nil]
    exact h.prefixes k
  · rw [part_concat_nil]
    exact h.lasts s k rest hs

/-- **A source writes** the next piece of its whole. -/
theorem Woven.write (h : Woven wholes log left) {s : σ} {k : ℕ} {c rest : List α}
    (hs : left s k (c ++ rest))
    (hleft : ∀ s' k' rest', left' s' k' rest' →
      (s' = s ∧ k' = k ∧ rest' = rest) ∨ (s' ≠ s ∧ left s' k' rest')) :
    Woven wholes (log ++ [(k, c)]) left' := by
  obtain ⟨hk, hwhole⟩ := h.lasts s k _ hs
  rw [← List.append_assoc] at hwhole
  -- another source is at work on another whole
  have hother : ∀ s' k' rest', s' ≠ s → left s' k' rest' → k' ≠ k := by
    rintro s' k' rest' hne hs' rfl
    exact hne (h.apart _ _ _ _ _ hs' hs)
  refine ⟨fun k' => ?_, fun s' k' rest' hs' => ?_, fun s₁ s₂ k' rest₁ rest₂ h₁ h₂ => ?_⟩
  · rw [part_concat]
    split
    · rename_i heq
      subst heq
      exact ⟨rest, hwhole⟩
    · rw [List.append_nil]
      exact h.prefixes k'
  · rcases hleft s' k' rest' hs' with ⟨rfl, rfl, rfl⟩ | ⟨hne, hs'⟩
    · rw [part_concat, if_pos rfl]
      exact ⟨hk, hwhole⟩
    · rw [part_concat, if_neg (hother _ _ _ hne hs').symm, List.append_nil]
      exact h.lasts s' k' rest' hs'
  · rcases hleft _ _ _ h₁ with ⟨rfl, rfl, -⟩ | ⟨hne₁, h₁⟩
    · rcases hleft _ _ _ h₂ with ⟨rfl, -, -⟩ | ⟨hne₂, h₂⟩
      · rfl
      · exact absurd rfl (hother _ _ _ hne₂ h₂)
    · rcases hleft _ _ _ h₂ with ⟨rfl, rfl, -⟩ | ⟨hne₂, h₂⟩
      · exact absurd rfl (hother _ _ _ hne₁ h₁)
      · exact h.apart _ _ _ _ _ h₁ h₂

/-- Of a whole that is not there yet, nothing has been written. -/
theorem Woven.part_length (h : Woven wholes log left) : part wholes.length log = [] := by
  have hpre := h.prefixes wholes.length
  have hnone : wholes.getD wholes.length [] = [] := by simp [List.getD]
  rw [hnone] at hpre
  exact List.prefix_nil.mp hpre

/-- **A whole is begun**: a piece of it is written, and `s` takes up the rest or nobody does. -/
theorem Woven.start (h : Woven wholes log left) {s : σ} (c rest : List α)
    (hleft : ∀ s' k' rest', left' s' k' rest' →
      (s' = s ∧ k' = wholes.length ∧ rest' = rest) ∨ left s' k' rest') :
    Woven (wholes ++ [c ++ rest]) (log ++ [(wholes.length, c)]) left' := by
  have hnew : (wholes ++ [c ++ rest]).getD wholes.length [] = c ++ rest := by
    simp [List.getD]
  have hold : ∀ k, k ≠ wholes.length → (wholes ++ [c ++ rest]).getD k [] = wholes.getD k [] := by
    intro k hk
    rcases Nat.lt_or_gt_of_ne hk with hlt | hgt
    · simp [List.getD, List.getElem?_append_left hlt]
    · have hnone : wholes[k]? = none := List.getElem?_eq_none hgt.le
      have hnone' : (wholes ++ [c ++ rest])[k]? = none := List.getElem?_eq_none (by simpa using hgt)
      rw [List.getD, List.getD, hnone, hnone']
  have hlt : ∀ s' k' rest', left s' k' rest' → k' < wholes.length := fun s' k' rest' hs' =>
    (h.lasts s' k' rest' hs').1
  refine ⟨fun k => ?_, fun s' k' rest' hs' => ?_, fun s₁ s₂ k' rest₁ rest₂ h₁ h₂ => ?_⟩
  · rw [part_concat]
    split
    · rename_i heq
      subst heq
      rw [h.part_length, hnew]
      exact List.prefix_append c rest
    · rename_i hne
      rw [List.append_nil, hold k (Ne.symm hne)]
      exact h.prefixes k
  · rw [List.length_append, List.length_singleton]
    rcases hleft s' k' rest' hs' with ⟨rfl, rfl, rfl⟩ | hs'
    · rw [part_concat, if_pos rfl, h.part_length, hnew]
      exact ⟨Nat.lt_succ_self _, rfl⟩
    · have hk := hlt s' k' rest' hs'
      rw [part_concat, if_neg hk.ne', List.append_nil, hold k' hk.ne]
      exact ⟨hk.trans (Nat.lt_succ_self _), (h.lasts s' k' rest' hs').2⟩
  · rcases hleft _ _ _ h₁ with ⟨rfl, rfl, -⟩ | h₁
    · rcases hleft _ _ _ h₂ with ⟨rfl, -, -⟩ | h₂
      · rfl
      · exact absurd (hlt _ _ _ h₂) (lt_irrefl _)
    · rcases hleft _ _ _ h₂ with ⟨rfl, rfl, -⟩ | h₂
      · exact absurd (hlt _ _ _ h₁) (lt_irrefl _)
      · exact h.apart _ _ _ _ _ h₁ h₂

end Machinery
