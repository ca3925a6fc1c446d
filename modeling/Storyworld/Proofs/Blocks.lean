import Storyworld.Proofs.Production

/-!
# Blocks and whole stories

A block is read and declared in one go, so its language also says what becomes of
the universe.  Blocks up to the end of a story have the language of the lists of
blocks, and with that a story compiles to what its blocks mean and to nothing else.
-/

namespace Storyworld.Reading

open Storyworld.Tree

variable {c c' : Compilation} {ts : List (Spanned Token)} {next : Token}

/-- The language of the blocks that begin with a keyword. -/
def blockLang (k : Keyword) : Lang Unit := fun c ts _ c' _ => ∃ b : Tree.Block,
  b.keyword = k ∧ ts.map Spanned.node = b.tokens ∧ b.compile? c (places ts) = some c'

/-! ## Factors -/

/-- What is compiled once a factor and its values have been read. -/
def factorDone (name : String) (values : List (Spanned Value)) (c : Compilation) :
    Option Compilation :=
  (c.world.addFactor name (values.map Spanned.node)).toOption.map fun x =>
    { c.noting (repetitions name [] values) with world := x.2 }

/-- Declare a factor that has been read. -/
def declareFactor (name : Spanned String) (values : List (Spanned Value)) : Step Unit := do
  modify fun r => { r with findings := r.findings ++ repetitions name.node [] values }
  match (← get).world.addFactor name.node (values.map Spanned.node) with
  | .ok (_, world) => modify fun r => { r with world := world }
  | .error (.duplicateFactor _) => refuse (.duplicateFactor name.node) name.span
  | .error (.emptyFactor _) => refuse (.emptyFactor name.node) name.span
  | .error cause => throw (.model cause)

theorem reads_declareFactor (m : Nat) (name : Spanned String) (values : List (Spanned Value)) :
    Reads m (declareFactor name values)
      (Lang.still fun c => (factorDone name.node values c).map fun c' => ((), c')) := by
  refine reads_still (fun r a c h => ?_) fun r h => ?_
  · obtain ⟨c₁, hc₁, hc⟩ := Option.map_eq_some_iff.mp h
    cases hc
    cases hadd : r.world.addFactor name.node (values.map Spanned.node) with
    | error e =>
        rw [factorDone, show r.done.world = r.world from rfl, hadd] at hc₁
        cases hc₁
    | ok x =>
        rw [factorDone, show r.done.world = r.world from rfl, hadd] at hc₁
        cases hc₁
        simp [declareFactor, StateT.run_bind, hadd]
        rfl
  · cases hadd : r.world.addFactor name.node (values.map Spanned.node) with
    | error e =>
        simp only [declareFactor, StateT.run_bind, StateT.run_modify, StateT.run_get, pure_bind,
          hadd]
        cases e <;> exact ⟨_, rfl⟩
    | ok x =>
        rw [factorDone, show r.done.world = r.world from rfl, hadd] at h
        cases h

theorem spannedValues_node (as : Several Atom) (ps : List Span) :
    (spannedValues as ps).map Spanned.node = as.toList.map Atom.value := by
  induction as generalizing ps with
  | one a => rfl
  | more a as ih => simp [spannedValues, Several.toList, ih]

theorem compile?_factor {name : String} {as : Several Atom} (c : Compilation)
    {k w p o e : Spanned Token} {us : List (Spanned Token)}
    (hus : us.map Spanned.node = Form.atoms.tokens as) :
    (Tree.Block.factor name as).compile? c (places (k :: w :: p :: o :: (us ++ [e]))) =
      factorDone name (spannedValues as (places us)) c := by
  have hpart := part_places [k, w, p, o] [e] rfl hus
  simp only [Form.atoms, List.cons_append, List.nil_append, List.length_cons, List.length_nil]
    at hpart
  simp only [Tree.Block.compile?, Tree.Block.world?, Tree.Block.found, Tree.Block.described,
    factorDone, hpart, spannedValues_node, Option.map_map, List.append_nil]
  rfl

theorem reads_factorBlock (m : Nat) :
    Reads m factorBlock (blockLang .factor) := by
  refine ((reads_expect m (by simp)).bind fun _ => (reads_word m _).bind fun name =>
    (reads_expect m (by simp)).bind fun _ => (reads_expect m (by simp)).bind fun _ =>
    (reads_values m).bind fun values => (reads_expect m (by simp)).bind fun _ =>
    reads_declareFactor m name values).congr fun c ts next c' x => ?_
  simp only [bind_token_iff, bind_word_iff]
  constructor
  · intro given
    obtain ⟨s₁, _, rfl, name, s₂, _, rfl, s₃, _, rfl, s₄, _, rfl, us, _, c₁, vs, rfl, ⟨⟨as,
      htokens, hvs, rfl⟩, -⟩, hclose⟩ := given
    obtain ⟨s₅, _, rfl, rfl, hdone⟩ := bind_token_iff.mp hclose
    obtain ⟨c₂, hc₂, hpair⟩ := Option.map_eq_some_iff.mp hdone
    cases hpair
    cases hvs
    refine ⟨.factor name as, rfl, ?_, ?_⟩
    · simp [Tree.Block.tokens, htokens, Form.atoms]
    · refine (compile?_factor c htokens).trans ?_
      rw [← hc₂]
      exact congrArg _ (Compilation.noting_nil c).symm
  · intro given
    obtain ⟨_ | _ | _, ⟨⟩, htokens, hdone⟩ := given
    rename_i name as
    simp only [Tree.Block.tokens, List.cons_append, List.nil_append, map_node_cons_iff,
      List.map_eq_append_iff, List.map_eq_nil_iff] at htokens
    obtain ⟨s₁, _, rfl, s₂, _, rfl, s₃, _, rfl, s₄, _, rfl, us, _, rfl, hus, s₅, _, rfl, rfl⟩ :=
      htokens
    have hdone := (compile?_factor c hus).symm.trans hdone
    refine ⟨s₁, _, rfl, name, s₂, _, rfl, s₃, _, rfl, s₄, _, rfl, us, _, c, _, rfl,
      ⟨⟨as, hus, rfl, (Compilation.noting_nil c).symm⟩, by simp [front]⟩,
      bind_token_iff.mpr ⟨s₅, [], rfl, rfl, ?_⟩⟩
    exact congrArg (Option.map fun c' => ((), c')) hdone

/-! ## Transitions -/

/-- The name of a transition, empty if there is none. -/
def transitionName : Step String := do
  match ← look with
  | .word _ => return (← word "a transition name").node
  | _ => return ""

/-- The text of a transition, empty if there is none. -/
def transitionText : Step String := do
  if (← look) = .mark .comma then
    let _ ← pass
    return (← text "a description string").node
  else return ""

/-- Declare a transition that has been read. -/
def declareTransition (label : String) (condition : Condition) (schedule : Schedule)
    (told : String) (es : List (FactorId × Value)) : Step Unit := do
  match (← get).world.addTransition label condition schedule told es with
  | .ok (_, world) => modify fun r => { r with world := world }
  | .error cause => throw (.model cause)

/-- What stands behind the name of a transition. -/
def transitionRest (label : String) : Step Unit := do
  let _ ← expect (.mark .colon)
  let _ ← expect (.mark .openParen)
  let c ← condition
  let _ ← expect (.mark .comma)
  let s ← schedule
  let _ ← expect (.mark .comma)
  let es ← effects
  let told ← transitionText
  let _ ← expect (.mark .closeParen)
  declareTransition label c s told es

theorem transitionBlock_eq : transitionBlock = (do
    let _ ← expect (.keyword .transition)
    let label ← transitionName
    transitionRest label) := by
  have htext (f : String → Step Unit) : (do
      let t ← look
      if t = .mark .comma then do
        let _ ← pass
        let content ← text "a description string"
        let told ← pure content.node
        f told
      else do
        let told ← pure ""
        f told) = transitionText >>= f := by
    rw [transitionText, bind_assoc]
    refine bind_congr fun t => ?_
    split <;> simp
  have hname (f : String → Step Unit) : (do
      let t ← look
      match t with
      | .word _ => do
        let name ← word "a transition name"
        let label ← pure name.node
        f label
      | _ => do
        let label ← pure ""
        f label) = transitionName >>= f := by
    rw [transitionName, bind_assoc]
    refine bind_congr fun t => ?_
    cases t <;> simp
  unfold transitionBlock
  refine bind_congr fun _ => ?_
  rw [← hname]
  simp only [transitionRest, ← htext]
  rfl

theorem reads_transitionName (m : Nat) :
    Reads m transitionName fun c ts next c' a => ∃ name : Option String,
      ts.map Spanned.node = nameTokens name ∧ a = name.getD "" ∧ c' = c ∧
        (name = none → ∀ w, next ≠ .word w) := by
  intro r hr hm
  by_cases hword : ∃ w, r.current.node = .word w
  · obtain ⟨w, hcur⟩ := hword
    have hrun : transitionName.run r =
        (do return (← word "a transition name").node : Step String).run r := by
      show StateT.run (match r.current.node with | .word _ => _ | _ => _) r = _
      rw [hcur]
    have hnamed := (reads_word m "a transition name").bind fun name => reads_pure m name.node
    refine ((hnamed r hr hm).congr fun c ts next c' x hfront => ?_).of_run_eq hrun
    rw [bind_word_iff]
    constructor
    · intro given
      obtain ⟨name, span, _, rfl, rfl, rfl, rfl⟩ := given
      exact ⟨some x, rfl, rfl, rfl, nofun⟩
    · intro given
      obtain ⟨name, htokens, rfl, rfl, hnone⟩ := given
      cases name with
      | none =>
          obtain rfl := List.map_eq_nil_iff.mp htokens
          exact absurd (hfront.symm.trans hcur) (hnone rfl w)
      | some name =>
          simp only [nameTokens, map_node_cons_iff, List.map_eq_nil_iff] at htokens
          obtain ⟨span, _, rfl, rfl⟩ := htokens
          exact ⟨name, span, [], rfl, rfl, rfl, rfl⟩
  · have hrun : transitionName.run r = (pure "" : Step String).run r := by
      show StateT.run (match r.current.node with | .word _ => _ | _ => _) r = _
      cases hcur : r.current.node with
      | word w => exact absurd ⟨w, hcur⟩ hword
      | _ => rfl
    refine ((readsAt_result r "").congr fun c ts next c' x hfront => ?_).of_run_eq hrun
    constructor
    · intro given
      obtain ⟨rfl, rfl, rfl⟩ := given
      exact ⟨none, rfl, rfl, rfl, fun _ w hw => hword ⟨w, hfront.trans hw⟩⟩
    · intro given
      obtain ⟨name, htokens, rfl, rfl, -⟩ := given
      cases name with
      | none => exact ⟨List.map_eq_nil_iff.mp htokens, rfl, rfl⟩
      | some name =>
          simp only [nameTokens, map_node_cons_iff] at htokens
          obtain ⟨span, _, rfl, -⟩ := htokens
          exact absurd ⟨name, hfront⟩ hword

theorem reads_transitionText (m : Nat) :
    Reads m transitionText fun c ts next c' a => ∃ told : Option String,
      ts.map Spanned.node = toldTokens told ∧ a = told.getD "" ∧ c' = c ∧
        (told = none → next ≠ .mark .comma) := by
  refine (Reads.choose (by simp) (fun _ => (reads_text (m - 1) _).bind fun content =>
    reads_pure _ content.node) (reads_pure m "")).congr fun c ts next c' x => ?_
  simp only [Lang.choose, bind_text_iff]
  constructor
  · intro given
    rcases given with ⟨s₁, _, rfl, content, s₂, _, rfl, rfl, rfl, rfl⟩ | ⟨hne, rfl, rfl, rfl⟩
    · exact ⟨some x, rfl, rfl, rfl, fun h => by cases h⟩
    · exact ⟨none, rfl, rfl, rfl, fun _ => hne⟩
  · intro given
    obtain ⟨told, htokens, rfl, rfl, hnone⟩ := given
    cases told with
    | none =>
        obtain rfl := List.map_eq_nil_iff.mp htokens
        exact .inr ⟨hnone rfl, rfl, rfl, rfl⟩
    | some content =>
        simp only [toldTokens, map_node_cons_iff, List.map_eq_nil_iff] at htokens
        obtain ⟨s₁, _, rfl, s₂, _, rfl, rfl⟩ := htokens
        exact .inl ⟨s₁, _, rfl, content, s₂, _, rfl, rfl, rfl, rfl⟩

/-- What is compiled once a transition has been read. -/
def transitionDone (label : String) (condition : Condition) (schedule : Schedule)
    (told : String) (es : List (FactorId × Value)) (c : Compilation) : Option Compilation :=
  (c.world.addTransition label condition schedule told es).toOption.map fun x =>
    { c with world := x.2 }

theorem reads_declareTransition (m : Nat) (label : String) (condition : Condition)
    (schedule : Schedule) (told : String) (es : List (FactorId × Value)) :
    Reads m (declareTransition label condition schedule told es)
      (Lang.still fun c =>
        (transitionDone label condition schedule told es c).map fun c' => ((), c')) := by
  refine reads_still (fun r a c h => ?_) fun r h => ?_
  · obtain ⟨c₁, hc₁, hc⟩ := Option.map_eq_some_iff.mp h
    cases hc
    cases hadd : r.world.addTransition label condition schedule told es with
    | error e =>
        rw [transitionDone, show r.done.world = r.world from rfl, hadd] at hc₁
        cases hc₁
    | ok x =>
        rw [transitionDone, show r.done.world = r.world from rfl, hadd] at hc₁
        cases hc₁
        simp [declareTransition, StateT.run_bind, hadd]
        rfl
  · cases hadd : r.world.addTransition label condition schedule told es with
    | error e =>
        simp only [declareTransition, StateT.run_bind, StateT.run_get, pure_bind, hadd]
        exact ⟨_, rfl⟩
    | ok x =>
        rw [transitionDone, show r.done.world = r.world from rfl, hadd] at h
        cases h

section Transition

variable {name told : Option String} {d : Conjunction} {t : Timing} {es : Changes}
  {ns cs ws xs us : List (Spanned Token)} {k p o q r e : Spanned Token}

theorem found_transition (u : Universe) (hns : ns.map Spanned.node = nameTokens name)
    (hcs : cs.map Spanned.node = d.tokens) (hws : ws.map Spanned.node = t.tokens)
    (hxs : xs.map Spanned.node = es.tokens) :
    (Tree.Block.transition name d t es told).found u
      (places (k :: (ns ++ p :: o :: (cs ++ q :: (ws ++ r :: (xs ++ us)))))) =
      d.found u (places cs) ++ t.found (places ws) ++ es.found u (places xs) := by
  have hname : ns.length = (nameTokens name).length := by rw [← hns, List.length_map]
  have hcond : cs.length = d.tokens.length := by rw [← hcs, List.length_map]
  have htime : ws.length = t.tokens.length := by rw [← hws, List.length_map]
  have h₁ := part_places (k :: (ns ++ [p, o])) (q :: (ws ++ r :: (xs ++ us)))
    (n := (nameTokens name).length + 3) (by simp; omega) hcs
  have h₂ := part_places (k :: (ns ++ p :: o :: (cs ++ [q]))) (r :: (xs ++ us))
    (n := (nameTokens name).length + 3 + d.tokens.length + 1) (by simp; omega) hws
  have h₃ := part_places (k :: (ns ++ p :: o :: (cs ++ q :: (ws ++ [r])))) us
    (n := (nameTokens name).length + 3 + d.tokens.length + 1 + t.tokens.length + 1)
    (by simp; omega) hxs
  simp only [List.cons_append, List.append_assoc, List.nil_append] at h₁ h₂ h₃
  simp only [Tree.Block.found, h₁, h₂, h₃]

theorem compile?_transition (c : Compilation) (hns : ns.map Spanned.node = nameTokens name)
    (hcs : cs.map Spanned.node = d.tokens) (hws : ws.map Spanned.node = t.tokens)
    (hxs : xs.map Spanned.node = es.tokens) :
    (Tree.Block.transition name d t es told).compile? c
      (places (k :: (ns ++ p :: o :: (cs ++ q :: (ws ++ r :: (xs ++ us)))))) = (do
        let x ← d.condition? c.world
        let ps ← es.pairs? c.world
        transitionDone (name.getD "") x t.schedule (told.getD "") ps
          (((c.noting (d.found c.world (places cs))).noting (t.found (places ws))).noting
            (es.found c.world (places xs)))) := by
  rw [Tree.Block.compile?, found_transition c.world hns hcs hws hxs, Tree.Block.world?]
  cases hd : d.condition? c.world with
  | none => rfl
  | some x =>
      cases hes : es.pairs? c.world with
      | none => rfl
      | some ps =>
          simp only [Option.bind_eq_bind, Option.bind_some, transitionDone, Tree.Block.described,
            Compilation.noting_noting, Compilation.noting_world, Option.map_map, List.append_nil]
          rfl

end Transition

theorem reads_transitionBlock (m : Nat) :
    Reads m transitionBlock (blockLang .transition) := by
  rw [transitionBlock_eq]
  refine ((reads_expect m (by simp)).bind fun _ => (reads_transitionName m).bind fun label =>
    (reads_expect m (by simp)).bind fun _ => (reads_expect m (by simp)).bind fun _ =>
    (reads_condition m).bind fun x => (reads_expect m (by simp)).bind fun _ =>
    (reads_schedule m).bind fun s => (reads_expect m (by simp)).bind fun _ =>
    (reads_effects m).bind fun ps => (reads_transitionText m).bind fun told =>
    (reads_expect m (by simp)).bind fun _ =>
    reads_declareTransition m label x s told ps).congr fun c ts next c' a => ?_
  rw [bind_token_iff]
  constructor
  · intro given
    obtain ⟨k, _, rfl, ns, _, c₁, label, rfl, ⟨name, hns, rfl, rfl, -⟩, h₁⟩ := given
    obtain ⟨p, _, rfl, h₂⟩ := bind_token_iff.mp h₁
    obtain ⟨o, _, rfl, h₃⟩ := bind_token_iff.mp h₂
    obtain ⟨cs, _, c₂, x, rfl, ⟨⟨d, hcs, hx, rfl⟩, -⟩, h₄⟩ := h₃
    obtain ⟨q, _, rfl, h₅⟩ := bind_token_iff.mp h₄
    obtain ⟨ws, _, c₃, s, rfl, ⟨t, hws, hs, rfl⟩, h₆⟩ := h₅
    obtain ⟨r, _, rfl, h₇⟩ := bind_token_iff.mp h₆
    obtain ⟨xs, _, c₄, ps, rfl, ⟨es, hxs, hps, rfl⟩, h₈⟩ := h₇
    obtain ⟨us, _, c₅, content, rfl, ⟨told, hus, rfl, rfl, -⟩, h₉⟩ := h₈
    obtain ⟨e, _, rfl, rfl, hlast⟩ := bind_token_iff.mp h₉
    obtain ⟨c₆, hc₆, hpair⟩ := Option.map_eq_some_iff.mp hlast
    cases hpair
    cases hs
    simp only [Form.condition, Form.timing, Form.changes] at hcs hws hxs hx hps
    simp only [Form.condition, Form.timing, Form.changes, Compilation.noting_world] at hps hc₆
    refine ⟨.transition name d t es told, rfl, ?_, ?_⟩
    · simp [Tree.Block.tokens, hns, hcs, hws, hxs, hus]
    · rw [compile?_transition c₁ hns hcs hws hxs, hx, hps]
      exact hc₆
  · intro given
    obtain ⟨_ | _ | _, ⟨⟩, htokens, hdone⟩ := given
    rename_i name d t es told
    simp only [Tree.Block.tokens, List.append_assoc, List.cons_append, List.nil_append,
      map_node_cons_iff, List.map_eq_append_iff, List.map_eq_nil_iff] at htokens
    obtain ⟨k, _, rfl, ns, _, rfl, hns, p, _, rfl, o, _, rfl, cs, _, rfl, hcs, q, _, rfl,
      ws, _, rfl, hws, r, _, rfl, xs, _, rfl, hxs, us, _, rfl, hus, e, _, rfl, rfl⟩ := htokens
    rw [compile?_transition c hns hcs hws hxs] at hdone
    obtain ⟨x, hx, hdone⟩ := Option.bind_eq_some_iff.mp hdone
    obtain ⟨ps, hps, hdone⟩ := Option.bind_eq_some_iff.mp hdone
    refine ⟨k, _, rfl, ns, _, c, _, rfl, ⟨name, hns, rfl, rfl, by simp [front]⟩,
      bind_token_iff.mpr ⟨p, _, rfl, bind_token_iff.mpr ⟨o, _, rfl, cs, _, _, x, rfl,
        ⟨⟨d, hcs, hx, rfl⟩, by simp [front, endsCondition, endsClause]⟩,
      bind_token_iff.mpr ⟨q, _, rfl, ws, _, _, _, rfl, ⟨t, hws, rfl, rfl⟩,
      bind_token_iff.mpr ⟨r, _, rfl, xs, _, _, ps, rfl, ⟨es, hxs, hps, rfl⟩,
      us, _, _, _, rfl, ⟨told, hus, rfl, rfl, by simp [front]⟩,
      bind_token_iff.mpr ⟨e, [], rfl, rfl, ?_⟩⟩⟩⟩⟩⟩
    exact congrArg (Option.map fun c' => ((), c')) hdone

/-! ## Descriptions -/

theorem compile?_description {d : Conjunction} {told : String} (c : Compilation)
    {k p o q w e : Span} {cs : List (Spanned Token)} (hcs : cs.map Spanned.node = d.tokens) :
    (Tree.Block.description d told).compile? c (places
      (⟨.keyword .description, k⟩ :: ⟨.mark .colon, p⟩ :: ⟨.mark .openParen, o⟩ ::
        (cs ++ [⟨.mark .comma, q⟩, ⟨.text told, w⟩, ⟨.mark .closeParen, e⟩]))) =
      (d.condition? c.world).map fun x =>
        { c.noting (d.found c.world (places cs)) with
          descriptions := c.descriptions ++ [⟨x, told, ⟨k.start, e.stop⟩⟩] } := by
  have hpart := part_places [⟨.keyword .description, k⟩, ⟨.mark .colon, p⟩, ⟨.mark .openParen, o⟩]
    [⟨.mark .comma, q⟩, ⟨.text told, w⟩, ⟨.mark .closeParen, e⟩] rfl hcs
  simp only [List.cons_append, List.nil_append, List.length_cons, List.length_nil] at hpart
  have haround : around (places (⟨.keyword .description, k⟩ :: ⟨.mark .colon, p⟩ ::
      ⟨.mark .openParen, o⟩ :: (cs ++ [⟨.mark .comma, q⟩, ⟨.text told, w⟩,
        ⟨.mark .closeParen, e⟩]))) = ⟨k.start, e.stop⟩ := by
    simp [around, List.getLast?_cons, List.getLast?_append]
  generalize places (⟨.keyword .description, k⟩ :: ⟨.mark .colon, p⟩ :: ⟨.mark .openParen, o⟩ ::
    (cs ++ [⟨.mark .comma, q⟩, ⟨.text told, w⟩, ⟨.mark .closeParen, e⟩])) = ps at hpart haround ⊢
  cases hd : d.condition? c.world with
  | none => simp only [Tree.Block.compile?, Tree.Block.world?, hd, Option.map_none]
  | some x =>
      simp only [Tree.Block.compile?, Tree.Block.world?, Tree.Block.found, Tree.Block.described,
        hd, hpart, haround, Option.map_some, Option.toList_some, List.map_cons, List.map_nil]
      rfl

theorem reads_descriptionBlock (m : Nat) :
    Reads m descriptionBlock (blockLang .description) := by
  have hlast (x : Condition) (told : String) (k e : Span) : Reads m
      (modify fun r => { r with
        descriptions := r.descriptions ++ [⟨x, told, ⟨k.start, e.stop⟩⟩] } : Step Unit)
      (Lang.still fun c => some ((), { c with
        descriptions := c.descriptions ++ [⟨x, told, ⟨k.start, e.stop⟩⟩] })) := by
    refine reads_still (fun r a c h => ?_) fun r h => ?_
    · cases h
      rfl
    · cases h
  refine ((reads_expect m (by simp)).bind fun k => (reads_expect m (by simp)).bind fun _ =>
    (reads_expect m (by simp)).bind fun _ => (reads_condition m).bind fun x =>
    (reads_expect m (by simp)).bind fun _ => (reads_text m _).bind fun told =>
    (reads_expect m (by simp)).bind fun e =>
    hlast x told.node k e).congr fun c ts next c' a => ?_
  simp only [bind_token_iff]
  constructor
  · intro given
    obtain ⟨k, _, rfl, p, _, rfl, o, _, rfl, cs, _, c₁, x, rfl, ⟨⟨d, hcs, hx, rfl⟩, -⟩, h₁⟩ := given
    obtain ⟨q, _, rfl, h₂⟩ := bind_token_iff.mp h₁
    obtain ⟨told, w, _, rfl, h₃⟩ := bind_text_iff.mp h₂
    obtain ⟨e, _, rfl, rfl, h₄⟩ := bind_token_iff.mp h₃
    cases h₄
    simp only [Form.condition] at hcs hx
    refine ⟨.description d told, rfl, ?_, ?_⟩
    · simp [Tree.Block.tokens, hcs]
    · rw [compile?_description c hcs, hx]
      rfl
  · intro given
    obtain ⟨_ | _ | _, ⟨⟩, htokens, hdone⟩ := given
    rename_i d told
    simp only [Tree.Block.tokens, List.cons_append, List.nil_append, map_node_cons_iff,
      List.map_eq_append_iff, List.map_eq_nil_iff] at htokens
    obtain ⟨k, _, rfl, p, _, rfl, o, _, rfl, cs, _, rfl, hcs, q, _, rfl, w, _, rfl, e, _, rfl,
      rfl⟩ := htokens
    rw [compile?_description c hcs] at hdone
    obtain ⟨x, hx, rfl⟩ := Option.map_eq_some_iff.mp hdone
    exact ⟨k, _, rfl, p, _, rfl, o, _, rfl, cs, _, _, x, rfl,
      ⟨⟨d, hcs, hx, rfl⟩, by simp [front, endsCondition, endsClause]⟩,
      bind_token_iff.mpr ⟨q, _, rfl, bind_text_iff.mpr ⟨told, w, _, rfl,
        bind_token_iff.mpr ⟨e, [], rfl, rfl, rfl⟩⟩⟩⟩

/-! ## One block -/

/-- The step of a block, by its keyword. -/
def block : Keyword → Step Unit
  | .factor => factorBlock
  | .transition => transitionBlock
  | .description => descriptionBlock
  | .spontaneous | .choice => unexpected "`factor`, `transition` or `description`"

theorem reads_block (m : Nat) (k : Keyword) : Reads m (block k) (blockLang k) := by
  cases k with
  | factor => exact reads_factorBlock m
  | transition => exact reads_transitionBlock m
  | description => exact reads_descriptionBlock m
  | spontaneous | choice =>
      refine (reads_unexpected m _).congr fun c ts next c' a => ?_
      constructor
      · exact False.elim
      · intro given
        obtain ⟨b, hb, -⟩ := given
        cases b <;> cases hb

/-! ## Blocks up to the end -/

theorem block_tokens_eq (b : Tree.Block) : ∃ toks, b.tokens = .keyword b.keyword :: toks := by
  cases b <;> exact ⟨_, rfl⟩

theorem blockLang_front {k : Keyword} {u : Unit} {t : Token} (h : blockLang k c ts next c' u) :
    front ts t = .keyword k := by
  obtain ⟨b, rfl, htokens, -⟩ := h
  obtain ⟨toks, htoks⟩ := block_tokens_eq b
  rw [htoks, map_node_cons_iff] at htokens
  obtain ⟨span, us, rfl, -⟩ := htokens
  rfl

/-- The language of blocks up to the end of a story. -/
def storyLang : Lang Unit := fun c ts next c' _ => ∃ bs,
  ts.map Spanned.node = Tree.tokens bs ∧ Tree.compile? c bs (places ts) = some c' ∧
    next = .finish

theorem storyLang_iff {u : Unit} : storyLang c ts next c' u ↔
    (ts = [] ∧ c' = c ∧ next = .finish) ∨
      ∃ k, (blockLang k).bind (fun _ => storyLang) c ts next c' u := by
  constructor
  · intro given
    obtain ⟨bs, htokens, hdone, hnext⟩ := given
    cases bs with
    | nil =>
        obtain rfl := List.map_eq_nil_iff.mp htokens
        cases hdone
        exact .inl ⟨rfl, rfl, hnext⟩
    | cons b bs =>
        obtain ⟨ts, us, rfl, hts, hus⟩ := List.map_eq_append_iff.mp htokens
        rw [Tree.compile?, take_places hts, drop_places hts] at hdone
        obtain ⟨c₁, hb, hrest⟩ := Option.bind_eq_some_iff.mp hdone
        exact .inr ⟨b.keyword, ts, us, c₁, (), rfl, ⟨b, rfl, hts, hb⟩, bs, hus, hrest, hnext⟩
  · intro given
    rcases given with ⟨rfl, rfl, hnext⟩ |
      ⟨k, ts, us, c₁, -, rfl, ⟨b, -, hts, hb⟩, bs, hus, hrest, hnext⟩
    · exact ⟨[], rfl, rfl, hnext⟩
    · refine ⟨b :: bs, ?_, ?_, hnext⟩
      · rw [List.map_append, hts, hus]
        rfl
      · rw [Tree.compile?, take_places hts, drop_places hts, hb]
        exact hrest

/-- A block is read, and then those that follow it. -/
theorem readsAt_block {m : Nat} {r : Reader} {k : Keyword} {p q : Step Unit}
    (hr : Closed r.lexemes) (hm : r.ahead.length ≤ m + 1) (hcur : r.current.node = .keyword k)
    (hp : Reads (m + 1) p (blockLang k)) (hq : Reads m q storyLang) :
    ReadsAt r (do p; q) storyLang := by
  have hrest : ∀ a r', p.run r = .ok (a, r') → ReadsAt r' q storyLang := by
    intro a r' hrun
    obtain ⟨ts, hts, b, -, htokens, -⟩ := (hp r hr hm a r').mp hrun
    obtain ⟨toks, htoks⟩ := block_tokens_eq b
    rw [htoks, map_node_cons_iff] at htokens
    obtain ⟨span, us, rfl, -⟩ := htokens
    have hlen := length_ahead hts
    rw [List.length_cons] at hlen
    exact hq r' (closed_suffix hr hts) (by omega)
  refine ((hp r hr hm).bind hrest).congr fun c ts next c' a hfront => ?_
  rw [storyLang_iff]
  constructor
  · intro h
    exact .inr ⟨k, h⟩
  · intro given
    rcases given with ⟨rfl, rfl, rfl⟩ | ⟨k', h⟩
    · cases hcur.symm.trans hfront
    · obtain ⟨ts, us, c₁, b, rfl, hb, -⟩ := id h
      rw [hcur, front_append, blockLang_front hb] at hfront
      cases hfront
      exact h

/-- At the end of a story nothing is left to read. -/
theorem readsAt_finish {r : Reader} (hcur : r.current.node = .finish) :
    ReadsAt r (pure ()) storyLang := by
  refine (readsAt_result r ()).congr fun c ts next c' a hfront => ?_
  rw [storyLang_iff]
  constructor
  · intro given
    obtain ⟨rfl, rfl, rfl⟩ := given
    exact .inl ⟨rfl, rfl, hfront.symm.trans hcur⟩
  · intro given
    rcases given with ⟨rfl, rfl, -⟩ | ⟨k, ts, us, c₁, b, rfl, hb, -⟩
    · exact ⟨rfl, rfl, rfl⟩
    · rw [hcur, front_append, blockLang_front hb] at hfront
      cases hfront

/-- What blocks do first is decided by the token in front. -/
theorem run_blocks_succ (n : Nat) (r : Reader) : (blocks (n + 1)).run r =
    match r.current.node with
    | .keyword k => (do block k; blocks n : Step Unit).run r
    | .finish => (pure () : Step Unit).run r
    | _ => (unexpected "`factor`, `transition` or `description`" : Step Unit).run r := by
  obtain ⟨⟨node, span⟩, ahead, w, fs, ds⟩ := r
  cases node with
  | keyword k => cases k <;> rfl
  | _ => rfl

/-- So many rounds are enough for as many lexemes ahead. -/
theorem reads_blocks : ∀ m, Reads m (blocks m) storyLang
  | 0 => by
      intro r hr hm
      refine readsAt_finish ?_
      by_contra hne
      exact hr.ne_nil (fun h => hne (Reading.token.inj h))
        (List.eq_nil_of_length_eq_zero (by omega))
  | m + 1 => by
      intro r hr hm
      have hfirst := run_blocks_succ m r
      cases hcur : r.current.node with
      | keyword k =>
          rw [hcur] at hfirst
          exact (readsAt_block hr hm hcur (reads_block _ k) (reads_blocks m)).of_run_eq hfirst
      | finish =>
          rw [hcur] at hfirst
          exact (readsAt_finish hcur).of_run_eq hfirst
      | _ =>
          -- neither the end nor the first word of a block
          rw [hcur] at hfirst
          refine readsAt_of_error hfirst fun ts r' a hts h => ?_
          have hfront := hcur.symm.trans (current_of_lexemes hts)
          rcases storyLang_iff.mp h with ⟨rfl, -, hnext⟩ | ⟨k, ts, us, c₁, b, rfl, hb, -⟩
          · cases hfront.trans hnext
          · rw [front_append, blockLang_front hb] at hfront
            cases hfront

end Storyworld.Reading
