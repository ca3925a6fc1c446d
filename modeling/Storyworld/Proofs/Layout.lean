import Storyworld.Proofs.Causes

/-!
# Layout

What is written between the tokens of a story says nothing, and neither does the way in which a
token is spelled, as long as it is the same token.  Stories with the same tokens are read side by
side by the same steps (`Alongside`), none of which asks where a token stands.  Places are only
handed on: every place in what is compiled or refused begins where some token begins and ends where
some token ends (`Counterparts`).

So two such stories compile to the same at the places of the same tokens, or both are refused for
the same fault at the same token (`compile_layout`).
-/

namespace Storyworld

/-! ## The same at the same tokens -/

/-- Where a token of one list begins or ends, and where its counterpart in another list does. -/
def Counterparts (ts us : List (Spanned Token)) (i j : Nat) : Prop :=
  ∃ t u, (t, u) ∈ ts.zip us ∧
    (i = t.span.start ∧ j = u.span.start ∨ i = t.span.stop ∧ j = u.span.stop)

/-- The same diagnostic at related places. -/
structure Diagnostic.Pairs (P : Nat → Nat → Prop) (d e : Diagnostic) : Prop where
  /-- How grave it is. -/
  severity : d.severity = e.severity
  /-- The headline. -/
  message : d.message = e.message
  /-- What stands at its place. -/
  label : d.label = e.label
  /-- The hint. -/
  note : d.note = e.note
  /-- Where it stands. -/
  span : d.span.Pairs P e.span

/-- The same compilation at related places. -/
structure Compilation.Pairs (P : Nat → Nat → Prop) (c d : Compilation) : Prop where
  /-- What is declared. -/
  world : c.world = d.world
  /-- The warnings, in order. -/
  warnings : List.Forall₂ (Diagnostic.Pairs P) c.warnings d.warnings
  /-- The descriptions, in order. -/
  descriptions : List.Forall₂ (Description.Pairs P) c.descriptions d.descriptions

section Pairs

variable {P : Nat → Nat → Prop} {A : Spanned Fault → Prop}

theorem Finding.diagnostic_pairs {w v : Spanned Finding} (h : w.Pairs P v) :
    (Finding.diagnostic w).Pairs P (Finding.diagnostic v) where
  severity := rfl
  message := congrArg Finding.message h.node
  label := congrArg (fun f : Finding => some f.label) h.node
  note := rfl
  span := h.span

theorem Reader.Pairs.done {r r' : Reader} (h : r.Pairs P A r') :
    r.done.Pairs P r'.done where
  world := h.world
  warnings := List.forall₂_map_left_iff.mpr (List.forall₂_map_right_iff.mpr
    (h.findings.imp fun _ _ => Finding.diagnostic_pairs))
  descriptions := h.descriptions

/-- Tokens with the same counterparts are lexemes that correspond. -/
theorem Lexeme.pairs_map_ofToken {ts us : List (Spanned Token)}
    (h : List.Forall₂ (Spanned.Pairs P) ts us) :
    Lexeme.Pairs P A (ts.map Lexeme.ofToken) (us.map Lexeme.ofToken) := by
  induction h with
  | nil => exact .nil
  | cons htu _ ih => exact .token htu ih

/-- In lists that say the same every token has its counterpart. -/
theorem counterparts_of_nodes {ts us : List (Spanned Token)}
    (h : ts.map Spanned.node = us.map Spanned.node) :
    List.Forall₂ (Spanned.Pairs (Counterparts ts us)) ts us := by
  have hnodes : List.Forall₂ (fun t u : Spanned Token => t.node = u.node) ts us := by
    rw [← List.forall₂_eq_eq_eq, List.forall₂_map_left_iff, List.forall₂_map_right_iff] at h
    exact h
  obtain ⟨hlength, hzip⟩ := List.forall₂_iff_zip.mp hnodes
  refine List.forall₂_iff_zip.mpr ⟨hlength, fun {t u} htu => ?_⟩
  exact ⟨hzip htu, ⟨t, u, htu, .inl ⟨rfl, rfl⟩⟩, ⟨t, u, htu, .inr ⟨rfl, rfl⟩⟩⟩

/-- Tokens that correspond compile to the same at their places, or both are refused for the same
fault at the same token. -/
theorem compileLexemes_pairs {ts us : List (Spanned Token)}
    (h : List.Forall₂ (Spanned.Pairs P) ts us) (hne : ts ≠ []) :
    (∃ c d, compileLexemes (ts.map Lexeme.ofToken) = .ok c ∧
      compileLexemes (us.map Lexeme.ofToken) = .ok d ∧ c.Pairs P d) ∨
    ∃ e e', compileLexemes (ts.map Lexeme.ofToken) = .error e ∧
      compileLexemes (us.map Lexeme.ofToken) = .error e' ∧ e.Pairs P e' := by
  cases h with
  | nil => exact absurd rfl hne
  | @cons t u ts us htu htus =>
      have hahead := Lexeme.pairs_map_ofToken (A := fun _ => False) htus
      have houtcome := Reading.alongside_blocks ((ts.map Lexeme.ofToken).length + 1)
        ⟨t, ts.map Lexeme.ofToken, .empty, [], []⟩ ⟨u, us.map Lexeme.ofToken, .empty, [], []⟩
        ⟨htu, hahead, rfl, .nil, .nil⟩
      rw [List.map_cons, List.map_cons, Reading.compileLexemes_ofToken_cons,
        Reading.compileLexemes_ofToken_cons, ← hahead.length_eq]
      generalize StateT.run _ _ = x at houtcome ⊢
      generalize StateT.run _ _ = y at houtcome ⊢
      cases houtcome with
      | ok _ hr => exact .inl ⟨_, _, rfl, rfl, hr.done⟩
      | error he => exact .inr ⟨_, _, rfl, rfl, he⟩
      | apart hapart => exact hapart.elim

end Pairs

/-! ## Stories -/

/-- Two stories with the same tokens compile to the same, with places at the same tokens, or both
are refused for the same fault at the same token. -/
theorem compile_layout {s t : String} {ts us : List (Spanned Token)} (hs : tokens s = .ok ts)
    (ht : tokens t = .ok us) (h : ts.map Spanned.node = us.map Spanned.node) :
    (∃ c d, compile s = .ok c ∧ compile t = .ok d ∧ c.Pairs (Counterparts ts us) d) ∨
    ∃ f g, compile s = .error (.ofFault s f) ∧ compile t = .error (.ofFault t g) ∧
      f.Pairs (Counterparts ts us) g := by
  have hne : ts ≠ [] := by
    rintro rfl
    exact lexemesFrom_ne_nil 0 s.toList (tokens_eq_ok.mp hs)
  have hpairs := compileLexemes_pairs (counterparts_of_nodes h) hne
  rw [← tokens_eq_ok.mp hs, ← tokens_eq_ok.mp ht] at hpairs
  rcases hpairs with ⟨c, d, hc, hd, hcd⟩ | ⟨e, e', he, he', hee'⟩
  · refine .inl ⟨c, d, ?_, ?_, hcd⟩
    · rw [compile, hc]
      rfl
    · rw [compile, hd]
      rfl
  · cases hee' with
    | @fault f g hfg =>
        refine .inr ⟨f, g, ?_, ?_, hfg⟩
        · rw [compile, he]
          rfl
        · rw [compile, he']
          rfl
    | model cause =>
        -- No story is refused for a cause that has no place.
        obtain ⟨f, hf, -⟩ := compileLexemes_error_caused he
        cases hf

/-- A factor that lists a value again with a zero before it, and a description. -/
def crampedStory : String := "factor a:(7,07)description:(a=7,\"% t\")"

/-- The same, with comments and the zeros elsewhere. -/
def airyStory : String := "% a\nfactor a : ( 007 ,\n  7 )\ndescription : % (\n ( a = 7,\"% t\" )\n"

/-- Both compile, with the warning at the value that is repeated. -/
theorem compile_layout_cramped_airy :
    ∃ ts us, tokens crampedStory = .ok ts ∧ tokens airyStory = .ok us ∧
      ts.map Spanned.node = us.map Spanned.node ∧
      ∃ c d, compile crampedStory = .ok c ∧ compile airyStory = .ok d ∧
        c.Pairs (Counterparts ts us) d ∧
        c.warnings.map (·.span) = [⟨12, 14⟩] ∧ d.warnings.map (·.span) = [⟨25, 26⟩] := by
  have hnodes : (tokens crampedStory).toOption.map (List.map Spanned.node) =
      (tokens airyStory).toOption.map (List.map Spanned.node) := by
    decide +kernel
  have hcramped : (compile crampedStory).toOption.map (fun c => c.warnings.map (·.span)) =
      some [⟨12, 14⟩] := by
    decide +kernel
  have hairy : (compile airyStory).toOption.map (fun c => c.warnings.map (·.span)) =
      some [⟨25, 26⟩] := by
    decide +kernel
  obtain ⟨c, hc, hcspans⟩ := exists_compilation hcramped
  obtain ⟨d, hd, hdspans⟩ := exists_compilation hairy
  obtain ⟨ts, -, ⟨stop, hts⟩, -⟩ := compile_eq_ok.mp hc
  obtain ⟨us, -, ⟨stop', hus⟩, -⟩ := compile_eq_ok.mp hd
  rw [hts, hus] at hnodes
  have hsame := Option.some.inj hnodes
  refine ⟨_, _, hts, hus, hsame, ?_⟩
  rcases compile_layout hts hus hsame with ⟨c', d', hc', hd', hpairs⟩ | ⟨f, g, hf, -, -⟩
  · cases hc.symm.trans hc'
    cases hd.symm.trans hd'
    exact ⟨c, d, hc, hd, hpairs, hcspans, hdspans⟩
  · cases hc.symm.trans hf

end Storyworld
