import Storyworld.Proofs.Accepts
import Storyworld.Proofs.Overlay

/-!
# Effects as they are listed

The effects of a transition are listed as pairs of a factor and a value.  What is kept of the list
is a map in the order of the factors, with one value for each.  Nothing is lost by that: overlaying
the map does what the pairs do one after the other (`Snapshot.overlay_ofList`).  A pair that is
inserted among others in order is written before those of greater factors, and it might as well be
written after them, since each factor stands once (`Snapshot.setAll_place`).

So a transition acts as the pairs it is made of (`Transition.ActsAs`).  The pairs of a transition
of a story are those of its effect list, in the order of the story
(`Tree.compile?_transitions`).  The names in the list are looked up where it stands, and they mean
the same at the end of the story.
-/

namespace Storyworld

/-! ## Writing a map in place of a list -/

namespace Snapshot

theorem set_set (s : Snapshot) (f : FactorId) (v w : Value) : (s.set f v).set f w = s.set f w :=
  congrArg Snapshot.mk (List.set_set ..)

/-- An entry placed among others in order acts as if it were written after them. -/
theorem setAll_place {f : FactorId} {v : Value} {es : List (FactorId × Value)}
    (h : Effects.Ordered es) (s : Snapshot) :
    s.setAll (Effects.place f v es) = (s.setAll es).set f v := by
  induction es generalizing s with
  | nil => rfl
  | cons e es ih =>
      obtain ⟨g, w⟩ := e
      rw [Effects.place]
      split
      · next hlt => exact set_setAll (h.not_mem_of_lt hlt) s
      · split
        · next heq =>
            subst heq
            have hf := h.not_mem_tail (Nat.le_refl _)
            rw [setAll_cons, setAll_cons, set_setAll hf, set_setAll hf, set_set]
        · exact ih (List.pairwise_cons.mp h).2 _

/-- Overlaying the effects made of pairs does what the pairs do, from left to right. -/
theorem overlay_ofList (s : Snapshot) (ps : List (FactorId × Value)) :
    s.overlay (.ofList ps) = s.setAll ps := by
  induction ps using List.reverseRecOn with
  | nil => rfl
  | append_singleton ps p ih =>
      calc s.overlay (.ofList (ps ++ [p]))
          = s.overlay ((Effects.ofList ps).insert p.1 p.2) := by rw [Effects.ofList_concat]
        _ = (s.overlay (.ofList ps)).set p.1 p.2 := setAll_place (Effects.ordered_ofList ps) s
        _ = s.setAll (ps ++ [p]) := by rw [ih, setAll_append, setAll_cons, setAll_nil]

/-- Writing the same again changes nothing, if each factor is written once. -/
theorem setAll_again {es : List (FactorId × Value)} (h : Effects.Ordered es) (s : Snapshot) :
    (s.setAll es).setAll es = s.setAll es := by
  induction es generalizing s with
  | nil => rfl
  | cons e es ih =>
      have hother := h.not_mem_tail (Nat.le_refl e.1.index)
      have hrest := ih (List.pairwise_cons.mp h).2 (s.set e.1 e.2)
      calc (s.setAll (e :: es)).setAll (e :: es)
          = (((s.set e.1 e.2).setAll es).set e.1 e.2).setAll es := rfl
        _ = (((s.set e.1 e.2).set e.1 e.2).setAll es).setAll es := by rw [← set_setAll hother]
        _ = (s.set e.1 e.2).setAll es := by rw [set_set, hrest]

/-- Writes to factors that a snapshot does not know may be left out. -/
theorem setAll_filter_known {s s' : Snapshot} (h : s'.size = s.size)
    (ps : List (FactorId × Value)) :
    s'.setAll (ps.filter fun p => (s.get? p.1).isSome) = s'.setAll ps := by
  induction ps generalizing s' with
  | nil => rfl
  | cons p ps ih =>
      have hset : (s'.set p.1 p.2).size = s.size := (size_set s' p.1 p.2).trans h
      have hrest := ih hset
      cases hp : s.get? p.1 with
      | some v => rw [List.filter_cons_of_pos (by rw [hp]; rfl), setAll_cons, setAll_cons, hrest]
      | none =>
          have hsize : s'.size ≤ p.1.index := h.trans_le (List.getElem?_eq_none_iff.mp hp)
          have hsame : s'.set p.1 p.2 = s' :=
            congrArg Snapshot.mk (List.set_eq_of_length_le hsize)
          rw [hsame] at hrest
          rw [List.filter_cons_of_neg (by rw [hp]; exact Bool.false_ne_true), setAll_cons, hsame,
            hrest]

/-- The snapshot overlaid with each pair by itself, from left to right. -/
def overlayEach (s : Snapshot) (ps : List (FactorId × Value)) : Snapshot :=
  ps.foldl (fun s p => s.overlay (.ofList [p])) s

theorem overlayEach_eq (s : Snapshot) (ps : List (FactorId × Value)) :
    s.overlayEach ps = s.setAll ps := rfl

end Snapshot

/-! ## Acting as pairs -/

/-- A transition acts as pairs of a factor and a value, in their order. -/
structure Transition.ActsAs (t : Transition) (ps : List (FactorId × Value)) : Prop where
  /-- Its effects do what the pairs do one after the other. -/
  inOrder : ∀ s : Snapshot, s.overlay t.effects = s.overlayEach ps
  /-- A factor that pairs name holds what the last of them says, if the snapshot knows it. -/
  given : ∀ (s : Snapshot) (before : List (FactorId × Value)) (f : FactorId) (v : Value)
    (after : List (FactorId × Value)), ps = before ++ (f, v) :: after →
      f ∉ after.map Prod.fst → (s.overlay t.effects).get? f = (s.get? f).map fun _ => v
  /-- A factor that no pair names holds what it held. -/
  kept : ∀ (s : Snapshot) (f : FactorId), f ∉ ps.map Prod.fst →
    (s.overlay t.effects).get? f = s.get? f
  /-- Pairs that name factors outside the snapshot make no difference. -/
  outside : ∀ s : Snapshot, s.overlay t.effects =
    s.overlay (.ofList (ps.filter fun p => (s.get? p.1).isSome))
  /-- The number of values stays. -/
  size : ∀ s : Snapshot, (s.overlay t.effects).size = s.size
  /-- To act twice in a row is to act once. -/
  again : ∀ s : Snapshot, (s.overlay t.effects).overlay t.effects = s.overlay t.effects
  /-- A session goes on with what the pairs make of its values. -/
  applied : ∀ s : Session, (s.apply t).2.values = s.values.overlayEach ps

theorem Transition.actsAs_of_effects {t : Transition} {ps : List (FactorId × Value)}
    (h : t.effects = .ofList ps) : t.ActsAs ps where
  inOrder s := by rw [h, s.overlay_ofList, s.overlayEach_eq]
  given s before f v after hps hlast := by
    rw [h, s.overlay_ofList, hps]
    exact Snapshot.get?_setAll_of_last hlast
  kept s f hf := by
    rw [h, s.overlay_ofList]
    exact Snapshot.get?_setAll_of_not_mem hf
  outside s := by rw [h, s.overlay_ofList, s.overlay_ofList, Snapshot.setAll_filter_known rfl]
  size s := s.size_overlay t.effects
  again s := Snapshot.setAll_again (h ▸ Effects.ordered_ofList ps) s
  applied s := by rw [Session.values_apply, h, Snapshot.overlay_ofList, Snapshot.overlayEach_eq]

/-! ## The effect lists of a story -/

namespace Tree

open Universe

variable {u u' : Universe}

theorem Change.pair?_extends (hu : u'.Extends u) {e : Change} {p : FactorId × Value}
    (h : e.pair? u = some p) : e.pair? u' = some p := by
  obtain ⟨f, hf, rfl⟩ := Option.map_eq_some_iff.mp h
  exact Option.map_eq_some_iff.mpr ⟨f, hu.findFactor? hf, rfl⟩

/-- Effects that are read are the same with more factors. -/
theorem Changes.pairs?_extends (hu : u'.Extends u) {es : Changes} {ps : List (FactorId × Value)}
    (h : es.pairs? u = some ps) : es.pairs? u' = some ps := by
  rw [pairs?_eq_some_iff] at h ⊢
  rw [← h]
  refine List.map_congr_left fun e he => ?_
  obtain ⟨p, -, hp⟩ := List.mem_map.mp (h ▸ List.mem_map_of_mem he)
  exact (Change.pair?_extends hu hp.symm).trans hp

/-- The effect list of a block, if it is that of a transition. -/
def Block.changes? : Block → Option Changes
  | .transition _ _ _ changes _ => some changes
  | _ => none

/-- The effects of a transition are made of the pairs that changes are. -/
def MadeOf (u : Universe) (t : Transition) (es : Changes) : Prop :=
  ∃ ps, es.pairs? u = some ps ∧ t.effects = .ofList ps

/-- A block adds a transition made of its effect list, if it has one. -/
theorem Block.world?_transitions {b : Block} (h : b.world? u = some u') :
    ∃ added, u'.transitions = u.transitions ++ added ∧
      List.Forall₂ (MadeOf u) added b.changes?.toList := by
  cases b with
  | factor name as =>
      obtain ⟨id, hadd⟩ := world?_factor.mp h
      obtain ⟨-, -, _, _, -, rfl⟩ := addFactor_eq_ok_iff.mp hadd
      exact ⟨[], (List.append_nil _).symm, .nil⟩
  | transition name c t es told =>
      obtain ⟨x, ps, id, -, hps, hadd⟩ := world?_transition.mp h
      obtain ⟨-, -, rfl⟩ := addTransition_eq_ok_iff.mp hadd
      exact ⟨[_], rfl, .cons ⟨ps, hps, rfl⟩ .nil⟩
  | description c told =>
      obtain ⟨-, rfl⟩ := world?_description.mp h
      exact ⟨[], (List.append_nil _).symm, .nil⟩

/-- Blocks add a transition for every effect list among them, in their order. -/
theorem compile?_transitions {bs : List Block} {c c' : Compilation} {ps : List Span}
    (h : compile? c bs ps = some c') :
    ∃ added, c'.world.transitions = c.world.transitions ++ added ∧
      List.Forall₂ (MadeOf c'.world) added (bs.filterMap Block.changes?) := by
  induction bs generalizing c ps with
  | nil =>
      cases h
      exact ⟨[], (List.append_nil _).symm, .nil⟩
  | cons b bs ih =>
      obtain ⟨c₁, hb, hrest⟩ := Option.bind_eq_some_iff.mp h
      obtain ⟨w, hw, rfl⟩ := Block.compile?_eq_some.mp hb
      obtain ⟨first, hfirst, hmade⟩ := Block.world?_transitions hw
      obtain ⟨others, hothers, hall⟩ := ih hrest
      -- the names in the list mean the same at the end
      have hextends : c'.world.Extends c.world :=
        (Block.world?_extends hw).trans (compile?_extends hrest)
      have hmade' : List.Forall₂ (MadeOf c'.world) first b.changes?.toList :=
        hmade.imp fun _ _ ⟨ps, hps, heffects⟩ =>
          ⟨ps, Changes.pairs?_extends hextends hps, heffects⟩
      refine ⟨first ++ others, ?_, ?_⟩
      · rw [hothers, hfirst, List.append_assoc]
      · rw [List.filterMap_cons]
        cases hchanges : b.changes? with
        | none =>
            rw [hchanges] at hmade'
            cases hmade'
            exact hall
        | some es =>
            rw [hchanges] at hmade'
            exact List.rel_append hmade' hall

end Tree

/-! ## Transitions act as they are listed -/

/-- A transition that is declared with pairs acts as these, and so does every transition of a
story with the pairs of its effect list.  Two transitions one after the other act as one list
behind the other. -/
theorem transitions_actAs :
    (∀ (u u' : Universe) label c s text ps id, u.addTransition label c s text ps = .ok (id, u') →
      ∃ t, u'.transition? id = some t ∧ t.ActsAs ps) ∧
    (∀ source c, compile source = .ok c → ∃ ts bs, HasTokens source ts ∧
      ts.map Spanned.node = Tree.tokens bs ∧
      List.Forall₂ (fun t (es : Tree.Changes) => ∃ ps, es.pairs? c.world = some ps ∧ t.ActsAs ps)
        c.world.transitions (bs.filterMap Tree.Block.changes?)) ∧
    ∀ (t t' : Transition) ps ps', t.ActsAs ps → t'.ActsAs ps' → ∀ s : Snapshot,
      (s.overlay t.effects).overlay t'.effects = s.overlay (.ofList (ps ++ ps')) := by
  refine ⟨?_, ?_, ?_⟩
  · intro u u' label c s text ps id h
    obtain ⟨-, rfl, rfl⟩ := Universe.addTransition_eq_ok_iff.mp h
    exact ⟨_, List.getElem?_concat_length, Transition.actsAs_of_effects rfl⟩
  · intro source c h
    obtain ⟨ts, bs, hts, htokens, hcompile⟩ := compile_eq_ok.mp h
    obtain ⟨added, hadded, hmade⟩ := Tree.compile?_transitions hcompile
    obtain rfl : c.world.transitions = added := hadded
    refine ⟨ts, bs, hts, htokens, hmade.imp fun t es ⟨ps, hps, heffects⟩ => ?_⟩
    exact ⟨ps, hps, Transition.actsAs_of_effects heffects⟩
  · intro t t' ps ps' h h' s
    rw [h'.inOrder, h.inOrder, s.overlay_ofList, Snapshot.overlayEach_eq, Snapshot.overlayEach_eq,
      Snapshot.setAll_append]

/-- The last of the pairs for a factor counts, and a factor that is not there is passed over. -/
example : Snapshot.overlay ⟨[⟨"a"⟩, ⟨"b"⟩]⟩
    (.ofList [(⟨1⟩, ⟨"x"⟩), (⟨5⟩, ⟨"y"⟩), (⟨0⟩, ⟨"z"⟩), (⟨1⟩, ⟨"w"⟩)]) = ⟨[⟨"z"⟩, ⟨"w"⟩]⟩ := by
  decide

end Storyworld
