import Storyworld.Proofs.Descent
import Storyworld.Proofs.Scope

/-!
# What overlaying does

Overlaying effects writes their entries one after the other.  A factor that no entry
speaks of keeps what it holds (`Snapshot.get?_overlay_of_not_mem`).  The entries of
the effects of a built universe speak of each factor once (`Built.ordered_effects`),
so a factor that an entry speaks of holds what the entry says
(`Snapshot.get?_overlay_of_mem`).

After several transitions a factor holds what the last of them gave it that changes
it, and what it held at first if none does (`Snapshot.get?_play_iff`).
-/

namespace Storyworld

/-! ## Several writes -/

namespace Snapshot

variable {f : FactorId} {v : Value}

theorem get?_setAll_of_not_mem {ws : List (FactorId × Value)} {s : Snapshot}
    (h : f ∉ ws.map Prod.fst) : (s.setAll ws).get? f = s.get? f := by
  induction ws generalizing s with
  | nil => rfl
  | cons w ws ih =>
      rw [List.map_cons, List.mem_cons, not_or] at h
      rw [setAll_cons, ih h.2, get?_set, if_neg (Ne.symm h.1)]

/-- Writing keeps what is held, or what is held then was written. -/
theorem get?_setAll (ws : List (FactorId × Value)) {s : Snapshot} (h : s.get? f = some v) :
    ∃ v', (s.setAll ws).get? f = some v' ∧ (v' = v ∨ (f, v') ∈ ws) := by
  induction ws generalizing s v with
  | nil => exact ⟨v, h, .inl rfl⟩
  | cons w ws ih =>
      obtain ⟨g, x⟩ := w
      by_cases hg : g = f
      · subst hg
        have hwritten : (s.set g x).get? g = some x := by
          rw [get?_set, if_pos rfl, h]
          rfl
        obtain ⟨v', hv', heq | hmem⟩ := ih hwritten
        · exact ⟨v', hv', .inr (heq ▸ List.mem_cons_self ..)⟩
        · exact ⟨v', hv', .inr (List.mem_cons_of_mem _ hmem)⟩
      · have hkept : (s.set g x).get? f = some v := by
          rw [get?_set, if_neg hg, h]
        obtain ⟨v', hv', hor⟩ := ih hkept
        exact ⟨v', hv', hor.imp_right (List.mem_cons_of_mem _)⟩

/-- A factor holds what was written to it last, if the snapshot knows it. -/
theorem get?_setAll_of_last {before after : List (FactorId × Value)} {s : Snapshot}
    (h : f ∉ after.map Prod.fst) :
    (s.setAll (before ++ (f, v) :: after)).get? f = (s.get? f).map fun _ => v := by
  rw [setAll_append, setAll_cons, get?_setAll_of_not_mem h, get?_set, if_pos rfl]
  cases hget : s.get? f with
  | none =>
      have hsize : s.size ≤ f.index := List.getElem?_eq_none_iff.mp hget
      have hnone : (s.setAll before).get? f = none :=
        List.getElem?_eq_none (Nat.le_trans (Nat.le_of_eq (size_overlay s ⟨before⟩)) hsize)
      rw [hnone]
  | some x =>
      obtain ⟨y, hy, -⟩ := get?_setAll before hget
      rw [hy]
      rfl

/-- A factor may be written before others or after them. -/
theorem set_setAll {ws : List (FactorId × Value)} (h : f ∉ ws.map Prod.fst) (s : Snapshot) :
    (s.set f v).setAll ws = (s.setAll ws).set f v := by
  induction ws generalizing s with
  | nil => rfl
  | cons w ws ih =>
      rw [List.map_cons, List.mem_cons, not_or] at h
      have hindex : f.index ≠ w.1.index := fun heq => h.1 (congrArg FactorId.mk heq)
      have hswap : (s.set f v).set w.1 w.2 = (s.set w.1 w.2).set f v :=
        congrArg Snapshot.mk (List.set_comm v w.2 hindex)
      rw [setAll_cons, setAll_cons, hswap, ih h.2]

end Snapshot

/-! ## Effects -/

/-- Entries stand in the order of their factors, each factor once. -/
def Effects.Ordered (es : List (FactorId × Value)) : Prop :=
  es.Pairwise fun p q => p.1.index < q.1.index

/-- The entries behind the first are of greater factors. -/
theorem Effects.Ordered.not_mem_tail {e : FactorId × Value} {es : List (FactorId × Value)}
    (h : Ordered (e :: es)) {f : FactorId} (hle : f.index ≤ e.1.index) : f ∉ es.map Prod.fst := by
  intro hmem
  obtain ⟨q, hq, rfl⟩ := List.mem_map.mp hmem
  exact absurd ((List.pairwise_cons.mp h).1 q hq) (Nat.not_lt_of_le hle)

/-- No entry is of a smaller factor than the first. -/
theorem Effects.Ordered.not_mem_of_lt {e : FactorId × Value} {es : List (FactorId × Value)}
    (h : Ordered (e :: es)) {f : FactorId} (hlt : f.index < e.1.index) :
    f ∉ (e :: es).map Prod.fst := by
  rw [List.map_cons, List.mem_cons, not_or]
  exact ⟨fun heq => Nat.lt_irrefl _ (heq ▸ hlt), h.not_mem_tail (Nat.le_of_lt hlt)⟩

theorem Effects.ordered_place {f : FactorId} {v : Value} {es : List (FactorId × Value)}
    (h : Ordered es) : Ordered (place f v es) := by
  induction es with
  | nil => exact List.pairwise_singleton _ _
  | cons e es ih =>
      obtain ⟨g, w⟩ := e
      obtain ⟨hfirst, hrest⟩ := List.pairwise_cons.mp h
      rw [place]
      split
      · next hlt =>
          refine List.pairwise_cons.mpr ⟨List.forall_mem_cons.mpr ⟨hlt, ?_⟩, h⟩
          exact fun q hq => Nat.lt_trans hlt (hfirst q hq)
      · next hle =>
          split
          · next heq =>
              subst heq
              exact List.pairwise_cons.mpr ⟨hfirst, hrest⟩
          · next hne =>
              have hlt : g.index < f.index := by
                have hindex : f.index ≠ g.index := by
                  intro heq
                  cases f
                  cases g
                  exact hne (congrArg FactorId.mk heq)
                omega
              refine List.pairwise_cons.mpr ⟨fun q hq => ?_, ih hrest⟩
              rcases mem_place hq with rfl | hq
              · exact hlt
              · exact hfirst q hq

/-- The entries of effects made of pairs are in order. -/
theorem Effects.ordered_ofList (ps : List (FactorId × Value)) :
    Ordered (Effects.ofList ps).entries := by
  induction ps using List.reverseRecOn with
  | nil => exact List.Pairwise.nil
  | append_singleton ps p ih =>
      rw [ofList_concat]
      exact ordered_place ih

/-- An entry placed among others in order takes the place of the one of its factor. -/
theorem Effects.mem_place_of_ordered {f : FactorId} {v : Value} {es : List (FactorId × Value)}
    (h : Ordered es) {p : FactorId × Value} :
    p ∈ place f v es ↔ p = (f, v) ∨ p.1 ≠ f ∧ p ∈ es := by
  have hother : ∀ {qs : List (FactorId × Value)}, f ∉ qs.map Prod.fst → p ∈ qs → p.1 ≠ f :=
    fun hqs hp heq => hqs (heq ▸ List.mem_map_of_mem hp)
  induction es with
  | nil => simp [place]
  | cons e es ih =>
      obtain ⟨g, w⟩ := e
      rw [place]
      split
      · next hlt =>
          have hbehind := hother (h.not_mem_of_lt hlt)
          rw [List.mem_cons]
          exact or_congr_right ⟨fun hp => ⟨hbehind hp, hp⟩, And.right⟩
      · split
        · next heq =>
            subst heq
            have hbehind := hother (h.not_mem_tail (Nat.le_refl _))
            rw [List.mem_cons, List.mem_cons]
            refine or_congr_right ⟨fun hp => ⟨hbehind hp, .inr hp⟩, ?_⟩
            rintro ⟨hne, rfl | hp⟩
            · exact absurd rfl hne
            · exact hp
        · next hne =>
            have hfirst : p = (g, w) → p.1 ≠ f := fun hp heq => hne (by rw [← heq, hp])
            have hrest : p ∈ place f v es ↔ p = (f, v) ∨ p.1 ≠ f ∧ p ∈ es :=
              ih (List.pairwise_cons.mp h).2
            rw [List.mem_cons, List.mem_cons, hrest]
            constructor
            · rintro (hp | hp | ⟨hp, hmem⟩)
              · exact .inr ⟨hfirst hp, .inl hp⟩
              · exact .inl hp
              · exact .inr ⟨hp, .inr hmem⟩
            · rintro (hp | ⟨hp, hmem | hmem⟩)
              · exact .inr (.inl hp)
              · exact .inl hmem
              · exact .inr (.inr ⟨hp, hmem⟩)

/-- Effects made of pairs give a factor what the last pair for it says. -/
theorem Effects.mem_ofList_iff {ps : List (FactorId × Value)} {f : FactorId} {v : Value} :
    (f, v) ∈ (Effects.ofList ps).entries ↔
      (ps.filter fun p => p.1 = f).getLast? = some (f, v) := by
  induction ps using List.reverseRecOn with
  | nil => exact ⟨nofun, nofun⟩
  | append_singleton ps q ih =>
      rw [ofList_concat, insert, mem_place_of_ordered (ordered_ofList ps), ih, List.filter_append]
      by_cases hq : q.1 = f
      · have hlast : [q].filter (fun p => p.1 = f) = [q] := by simp [hq]
        rw [hlast, List.getLast?_concat, Option.some.injEq, eq_comm (a := (f, v))]
        exact or_iff_left fun hne => hne.1 hq.symm
      · have hnone : [q].filter (fun p => p.1 = f) = [] := by simp [hq]
        rw [hnone, List.append_nil]
        refine ⟨fun hor => hor.elim (fun heq => absurd (congrArg Prod.fst heq).symm hq) And.right,
          fun hlast => .inr ⟨Ne.symm hq, hlast⟩⟩

/-- The effects of a built universe are in order. -/
theorem Universe.Built.ordered_effects {u : Universe} (hu : u.Built) :
    ∀ t ∈ u.transitions, Effects.Ordered t.effects.entries := by
  induction hu with
  | empty => exact fun t ht => absurd ht List.not_mem_nil
  | factor _ hadd ih =>
      obtain ⟨-, -, _, _, -, rfl⟩ := addFactor_eq_ok_iff.mp hadd
      exact ih
  | transition _ hadd ih =>
      obtain ⟨-, -, rfl⟩ := addTransition_eq_ok_iff.mp hadd
      exact List.forall_mem_append.mpr ⟨ih, by simpa using Effects.ordered_ofList _⟩

namespace Snapshot

variable {s : Snapshot} {f : FactorId} {v : Value} {e : Effects}

/-- A factor that no entry speaks of keeps what it holds. -/
theorem get?_overlay_of_not_mem (h : f ∉ e.factors) : (s.overlay e).get? f = s.get? f :=
  get?_setAll_of_not_mem h

/-- A factor that an entry speaks of holds what the entry says. -/
theorem get?_overlay_of_mem (he : Effects.Ordered e.entries) (h : (f, v) ∈ e.entries) :
    (s.overlay e).get? f = (s.get? f).map fun _ => v := by
  obtain ⟨before, after, hsplit⟩ := List.append_of_mem h
  rw [hsplit] at he
  have hbehind : Effects.Ordered ((f, v) :: after) := (List.pairwise_append.mp he).2.1
  rw [overlay, hsplit, get?_setAll_of_last (hbehind.not_mem_tail (Nat.le_refl _))]

/-- A transition is the last of some to change a factor, and gives it a value. -/
def LastGives (f : FactorId) (v : Value) (ts : List Transition) : Prop :=
  ∃ before t after, ts = before ++ t :: after ∧ (f, v) ∈ t.effects.entries ∧
    ∀ t' ∈ after, f ∉ t'.effects.factors

/-- Behind one more transition it is the last to change the factor, or it leaves the factor
alone. -/
theorem lastGives_append {ts : List Transition} {t : Transition} :
    LastGives f v (ts ++ [t]) ↔
      (f, v) ∈ t.effects.entries ∨ f ∉ t.effects.factors ∧ LastGives f v ts := by
  constructor
  · intro given
    obtain ⟨before, t', after, hsplit, hmem, hafter⟩ := given
    rcases List.eq_nil_or_concat' after with rfl | ⟨after, t'', rfl⟩
    · obtain ⟨-, heq⟩ := List.append_inj' hsplit rfl
      cases heq
      exact .inl hmem
    · rw [← List.cons_append, ← List.append_assoc] at hsplit
      obtain ⟨hbefore, heq⟩ := List.append_inj' hsplit rfl
      cases heq
      obtain ⟨hafter, hlast⟩ := List.forall_mem_append.mp hafter
      exact .inr ⟨hlast t (List.mem_singleton_self t), before, t', after, hbefore, hmem, hafter⟩
  · rintro (hmem | ⟨hnot, before, t', after, rfl, hmem, hafter⟩)
    · exact ⟨ts, t, [], rfl, hmem, fun _ h => absurd h List.not_mem_nil⟩
    · refine ⟨before, t', after ++ [t], by simp, hmem, ?_⟩
      exact List.forall_mem_append.mpr ⟨hafter, List.forall_mem_singleton.mpr hnot⟩

/-- After transitions a factor holds a value if the last of them that changes it gave it the
value, or if none changes it and it held the value before. -/
theorem get?_play_iff {ts : List Transition}
    (hts : ∀ t ∈ ts, Effects.Ordered t.effects.entries) {x : Value} (hx : s.get? f = some x) :
    (s.play ts).get? f = some v ↔
      LastGives f v ts ∨ x = v ∧ ∀ t ∈ ts, f ∉ t.effects.factors := by
  induction ts using List.reverseRecOn generalizing v with
  | nil =>
      rw [show s.play [] = s from rfl, hx]
      simp [LastGives]
  | append_singleton ts t ih =>
      obtain ⟨hts, ht⟩ := List.forall_mem_append.mp hts
      have hplay : s.play (ts ++ [t]) = (s.play ts).overlay t.effects := play_append s ts [t]
      rw [hplay, List.forall_mem_append]
      by_cases hmem : f ∈ t.effects.factors
      · obtain ⟨⟨g, y⟩, hy, rfl⟩ := List.mem_map.mp hmem
        have hheld : ∃ y, (s.play ts).get? g = some y := by
          refine Snapshot.play_keeps (P := fun s => ∃ y, s.get? g = some y) ?_ ⟨x, hx⟩
          rintro t - s ⟨y, hy⟩
          obtain ⟨y', hy', -⟩ := get?_setAll t.effects.entries hy
          exact ⟨y', hy'⟩
        obtain ⟨z, hz⟩ := hheld
        have hlast : (g, v) ∈ t.effects.entries ↔ y = v := by
          constructor
          · intro hv
            have hread := get?_overlay_of_mem (s := s.play ts) (ht t (by simp)) hv
            have hread' := get?_overlay_of_mem (s := s.play ts) (ht t (by simp)) hy
            rw [hread, hz] at hread'
            exact (Option.some.inj hread').symm
          · rintro rfl
            exact hy
        rw [get?_overlay_of_mem (ht t (by simp)) hy, hz, lastGives_append, hlast]
        simp [hmem]
      · have hnone : (f, v) ∉ t.effects.entries := fun h => hmem (List.mem_map_of_mem h)
        rw [get?_overlay_of_not_mem hmem, ih hts, lastGives_append]
        simp [hmem, hnone]

end Snapshot

end Storyworld
