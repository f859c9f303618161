import FrameGraph.Proofs.Shader.Creation
import FrameGraph.Proofs.Shader.Ledger
import FrameGraph.Proofs.Shader.Workshop

/-! # The books of an application

Whatever an application does with its shaders, the ledger of their modules balances afterwards.
Most operations move holdings around, so that the same shaders are held in another order.
-/

namespace FrameGraph

set_option autoImplicit false

open Host

theorem Ledger.Balances.drop_holding {l : Ledger} {h : Host} {log : List Call} {x : Holding}
    {rest : List Shader} (hBalances : (l.withHeld (x.shaders ++ rest)).Balances h log) :
    ∃ next, Sent h (x.drop.run h).2 next ∧
      (l.withHeld rest).Balances (x.drop.run h).2 (log ++ next) := by
  cases x with
  | handle s => exact hBalances.release
  | pass p => exact hBalances.drop_pass
  | draft d => exact hBalances.drop_passes
  | plan p => exact hBalances.drop_passes

namespace Workshop

variable {w w' : Workshop} {h : Host} {log : List Call} {adopted : List Object}

def ledger (w : Workshop) (lost adopted : List Object) : Ledger :=
  ⟨w.shaders, w.held, lost, adopted⟩

/-- The books of the workshop balance after the calls of `log`. -/
def Sound (w : Workshop) (h : Host) (log : List Call) (adopted : List Object) : Prop :=
  ∃ lost, (w.ledger lost adopted).Balances h log

/-- What the work makes of a workshop is sound after its calls. -/
def Keeps (work : HostM Workshop) (h : Host) (log : List Call) (adopted : List Object) : Prop :=
  ∃ next, Sent h (work.run h).2 next ∧ (work.run h).1.Sound (work.run h).2 (log ++ next) adopted

theorem sound_of_balances {lost : List Object} {held : List Shader}
    (hBalances : ((w.ledger lost adopted).withHeld held).Balances h log)
    (hShaders : w'.shaders = w.shaders) (hHeld : held.Perm w'.held) : w'.Sound h log adopted := by
  have hLedger : w'.ledger lost adopted = (w.ledger lost adopted).withHeld w'.held := by
    rw [ledger, hShaders]
    rfl
  exact ⟨lost, hLedger ▸ hBalances.perm hHeld⟩

theorem Sound.rearrange (hSound : w.Sound h log adopted) (hShaders : w'.shaders = w.shaders)
    (hHeld : w.held.Perm w'.held) : w'.Sound h log adopted := by
  obtain ⟨lost, hBalances⟩ := hSound
  exact sound_of_balances hBalances hShaders hHeld

theorem sound_empty (cache : LayoutCache) (hNobody : h.owners = []) :
    (Workshop.mk [] [] cache).Sound h [] [] := by
  refine ⟨[], ?_, .nil, List.forall_mem_nil _, List.nil_subset _, fun _ => rfl, fun _ => rfl, ?_⟩
  · rw [hNobody]
    exact .refl _
  · intro before c after info hSplit
    exact absurd hSplit.symm (List.append_ne_nil_of_right_ne_nil before (List.cons_ne_nil c after))

theorem keeps_pure (hSound : w.Sound h log adopted) : Keeps (pure w) h log adopted :=
  ⟨[], .refl h, log.append_nil.symm ▸ hSound⟩

theorem Sound.quiet {α : Type} {scope : Scope} {post : α → Prop} {work : HostM α}
    (hSound : w.Sound h log adopted) (hWork : KeepsTo scope post work)
    (hUses : ∀ c, scope.calls c → c.UsesOnly w.held) :
    ∃ next, Sent h (work.run h).2 next ∧ w.Sound (work.run h).2 (log ++ next) adopted := by
  obtain ⟨lost, hBalances⟩ := hSound
  obtain ⟨next, hSent, hNext⟩ := hWork.within h
  exact ⟨next, hSent, lost,
    hBalances.quiet (fun c hc => hUses c (hNext c hc)) (hWork.preserves_ownership h)⟩

/-! ## Every operation keeps the books -/

theorem keeps_create (hSound : w.Sound h log adopted) (vertex fragment : ShaderSource) :
    Keeps (w.step (.create vertex fragment)) h log adopted := by
  obtain ⟨lost, hBalances⟩ := hSound
  obtain ⟨next, hSent, hCreated⟩ := Shader.created w.cache vertex fragment h
  unfold Keeps
  rw [step, StateT.run_bind]
  rcases hRun : (Shader.create w.cache vertex fragment).run h with ⟨⟨e | s, cache⟩, h'⟩
  · rw [hRun] at hSent hCreated
    cases hCreated with
    | failed hOwnership hCancels =>
      exact ⟨next, hSent, _, hBalances.lose hOwnership hCancels.idle hCancels.modules⟩
  · rw [hRun] at hSent hCreated
    cases hCreated with
    | made hKey hOwnership hIdle hDestroyed hMade =>
      have hObjects : ∀ o, s.objects.count o =
          (Log.madeModules next).count o + ([] : List Object).count o := fun o => by
        rw [hMade, List.count_nil, Nat.add_zero]
      have hEnter := hBalances.enter hKey hOwnership hIdle hDestroyed hObjects
      change Ledger.Balances ⟨_, _, _, adopted ++ []⟩ _ _ at hEnter
      rw [List.append_nil] at hEnter
      exact ⟨next, hSent, lost, hEnter⟩

theorem keeps_adopt (hSound : w.Sound h log adopted)
    (vertexModule fragmentModule : Option (Handle .shaderModule)) (attributes : List Attribute)
    (setLayout : Option (Handle .setLayout)) :
    Keeps (w.step (.adopt vertexModule fragmentModule attributes setLayout)) h log
      (adopted ++
        (Operation.adopt vertexModule fragmentModule attributes setLayout).adopted) := by
  obtain ⟨lost, hBalances⟩ := hSound
  let s : Shader := ⟨h.lastKey + 1, vertexModule, fragmentModule, attributes, setLayout⟩
  have hObjects : ∀ o, s.objects.count o = (Log.madeModules []).count o +
      (Operation.adopt vertexModule fragmentModule attributes setLayout).adopted.count o :=
    fun o => (Nat.zero_add _).symm
  exact ⟨[], .of_device_eq rfl, lost, hBalances.enter rfl rfl (List.forall_mem_nil _) rfl hObjects⟩

theorem keeps_share (hSound : w.Sound h log adopted) (k : Nat) :
    Keeps (w.step (.share k)) h log adopted := by
  obtain ⟨lost, hBalances⟩ := hSound
  rw [step]
  cases hPlace : w.held[k]? with
  | none => exact keeps_pure ⟨lost, hBalances⟩
  | some s =>
    have hHeld : s ∈ w.held := List.mem_of_getElem? hPlace
    refine ⟨[], .of_device_eq rfl, ?_⟩
    rw [List.append_nil]
    exact sound_of_balances (hBalances.retain (hBalances.known s hHeld) hHeld) rfl (.refl _)

theorem keeps_declare (hSound : w.Sound h log adopted) (k : Nat) (d : Declaration Nat) :
    Keeps (w.step (.declare k d)) h log adopted := by
  rw [step]
  split
  · next p d' hPlace hDeclaration =>
    have hPerm := held_perm hPlace
    by_cases hPipeline : ∃ s bindings, d' = .pipeline s bindings
    · obtain ⟨s, bindings, rfl⟩ := hPipeline
      have hHeld : s ∈ w.held := by
        cases d with
        | pipeline i _ =>
          obtain ⟨t, ht, hSame⟩ := Option.map_eq_some_iff.mp hDeclaration
          cases hSame
          exact List.mem_of_getElem? ht
        | _ => cases hDeclaration
      obtain ⟨lost, hBalances⟩ := hSound
      -- The new shader is taken first, so it stays even if the pass had it before.
      have hRetained := hBalances.retain (hBalances.known s hHeld) hHeld
      have hMoved : (s :: w.held).Perm (p.shaders ++ s :: (w.without k).held) :=
        (hPerm.cons s).trans List.perm_middle.symm
      obtain ⟨next, hSent, hDropped⟩ := (hRetained.perm hMoved).drop_pass
      have hRetain : Sent h (s.retain.run h).2 [] := .of_device_eq rfl
      exact ⟨next, hRetain.trans hSent, sound_of_balances hDropped rfl (.refl _)⟩
    · have hOther : ∀ s bindings, d' ≠ .pipeline s bindings := fun s bindings hSame =>
        hPipeline ⟨s, bindings, hSame⟩
      have hRun : (p.declareOwned d').run h = (p.declare d', h) := by
        cases d' with
        | pipeline s bindings => exact absurd rfl (hOther s bindings)
        | _ => rfl
      have hKept : ((w.without k).put (.pass (p.declare d'))).Sound h log adopted := by
        refine hSound.rearrange rfl ?_
        rw [held_put, Holding.shaders, shaders_declare hOther]
        exact hPerm
      unfold Keeps
      rw [StateT.run_bind, hRun]
      exact keeps_pure hKept
  · exact keeps_pure hSound

theorem keeps_compile (hSound : w.Sound h log adopted) (k : Nat) (images : ImageMap) :
    Keeps (w.step (.compile k images)) h log adopted := by
  rw [step]
  split
  · next p hPlace =>
    have hShaders : p.shaders ⊆ w.held := shaders_subset_held hPlace
    have hCompile : KeepsTo { calls := p.Issues, releases := False } (fun _ => True)
        (do let _ ← (p.compile images).run; pure w) :=
      .bind (p.confined_compile images) fun _ _ => .pure trivial
    exact hSound.quiet hCompile fun _ hIssues => hIssues.usesOnly hShaders
  · exact keeps_pure hSound

theorem keeps_add (hSound : w.Sound h log adopted) (k j : Nat) :
    Keeps (w.step (.add k j)) h log adopted := by
  rw [step]
  split
  · next p d hPass hDraft =>
    refine keeps_pure (hSound.rearrange rfl ?_)
    rw [held_put, Holding.shaders, List.flatMap_append, List.flatMap_singleton, List.append_assoc]
    refine (held_perm hPass).trans (((held_perm hDraft).append_left _).trans ?_)
    exact List.perm_append_comm_assoc ..
  · exact keeps_pure hSound

theorem keeps_plan (hSound : w.Sound h log adopted) (k : Nat) :
    Keeps (w.step (.plan k)) h log adopted := by
  rw [step]
  split
  · next d hPlace =>
    have hReport : KeepsTo { calls := fun _ => False } (fun _ => True) (reportAll d.notices) :=
      .reportAll fun _ _ => trivial
    obtain ⟨next, hSent, hQuiet⟩ := hSound.quiet hReport fun _ => False.elim
    refine ⟨next, hSent, hQuiet.rearrange rfl ?_⟩
    have hShaders : d.plan.passes.flatMap Pass.shaders = d.passes.flatMap Pass.shaders :=
      shaders_resolveAll {} d.passes
    change w.held.Perm ((w.without k).put (.plan d.plan)).held
    rw [held_put, Holding.shaders, hShaders]
    exact held_perm hPlace
  · exact keeps_pure hSound

theorem keeps_amend (hSound : w.Sound h log adopted) (k : Nat) (edit : PlanEdit) :
    Keeps (w.step (.amend k edit)) h log adopted := by
  rw [step]
  split
  · next p hPlace =>
    have hEdited : ((w.without k).put (.plan (edit.apply p))).held =
        Holding.shaders (.plan p) ++ (w.without k).held := held_put _
    exact keeps_pure (hSound.rearrange rfl (hEdited ▸ held_perm hPlace))
  · exact keeps_pure hSound

theorem keeps_take (hSound : w.Sound h log adopted) (k i : Nat) :
    Keeps (w.step (.take k i)) h log adopted := by
  rw [step]
  split
  · next p hPlace =>
    split
    · next q hPass =>
      refine keeps_pure (hSound.rearrange rfl ((held_perm hPlace).trans ?_))
      rw [held_put, held_put, Holding.shaders, Holding.shaders, Holding.shaders,
        ← List.append_assoc]
      obtain ⟨hi, rfl⟩ := List.getElem?_eq_some_iff.mp hPass
      refine .append_right _ ?_
      rw [← List.flatMap_cons]
      exact (List.getElem_cons_eraseIdx_perm hi).symm.flatMap_right Pass.shaders
    · exact keeps_pure hSound
  · exact keeps_pure hSound

/-- A build uses the shaders that are held, and lets go of those of its plan. -/
theorem balances_build {lost : List Object} {k : Nat} {p : Plan}
    (hBalances : (w.ledger lost adopted).Balances h log)
    (hPlace : w.holdings[k]? = some (.plan p)) (env : Environment) :
    ∃ next, Sent h ((p.build env).run h).2 next ∧
      ((w.without k).ledger lost adopted).Balances ((p.build env).run h).2 (log ++ next) := by
  have hWork := p.confined_assemble env
  obtain ⟨first, hSent, hFirst⟩ := hWork.within h
  have hUses : ∀ c ∈ first, c.UsesOnly w.held := fun c hc =>
    Plan.usesOnly_of_scope (hFirst c hc) (shaders_subset_held hPlace)
  have hAssembled := hBalances.quiet hUses (hWork.preserves_ownership h)
  obtain ⟨last, hDrop, hDropped⟩ := (hAssembled.perm (held_perm hPlace)).drop_passes
  refine ⟨first ++ last, hSent.trans hDrop, ?_⟩
  rw [← List.append_assoc]
  exact hDropped

theorem keeps_build (hSound : w.Sound h log adopted) (k : Nat) (env : Environment) :
    Keeps (w.step (.build k env)) h log adopted := by
  rw [step]
  split
  · next p hPlace =>
    obtain ⟨lost, hBalances⟩ := hSound
    obtain ⟨next, hSent, hBuilt⟩ := balances_build hBalances hPlace env
    exact ⟨next, hSent, lost, hBuilt⟩
  · exact keeps_pure hSound

theorem keeps_drop (hSound : w.Sound h log adopted) (k : Nat) :
    Keeps (w.step (.drop k)) h log adopted := by
  rw [step]
  split
  · next x hPlace =>
    obtain ⟨lost, hBalances⟩ := hSound
    obtain ⟨next, hSent, hDropped⟩ := (hBalances.perm (held_perm hPlace)).drop_holding
    exact ⟨next, hSent, sound_of_balances hDropped rfl (.refl _)⟩
  · exact keeps_pure hSound

theorem Keeps.nothing_adopted {work : HostM Workshop} (hKeeps : Keeps work h log adopted) :
    Keeps work h log (adopted ++ []) := adopted.append_nil.symm ▸ hKeeps

theorem keeps_step (hSound : w.Sound h log adopted) (op : Operation) :
    Keeps (w.step op) h log (adopted ++ op.adopted) := by
  cases op with
  | create vertex fragment => exact (keeps_create hSound vertex fragment).nothing_adopted
  | adopt vertexModule fragmentModule attributes setLayout =>
    exact keeps_adopt hSound vertexModule fragmentModule attributes setLayout
  | share k => exact (keeps_share hSound k).nothing_adopted
  | begin name => exact (keeps_pure (hSound.rearrange rfl (.refl _))).nothing_adopted
  | declare k d => exact (keeps_declare hSound k d).nothing_adopted
  | compile k images => exact (keeps_compile hSound k images).nothing_adopted
  | draft output => exact (keeps_pure (hSound.rearrange rfl (.refl _))).nothing_adopted
  | add k j => exact (keeps_add hSound k j).nothing_adopted
  | plan k => exact (keeps_plan hSound k).nothing_adopted
  | amend k edit => exact (keeps_amend hSound k edit).nothing_adopted
  | take k i => exact (keeps_take hSound k i).nothing_adopted
  | build k env => exact (keeps_build hSound k env).nothing_adopted
  | drop k => exact (keeps_drop hSound k).nothing_adopted

theorem keeps_run (operations : List Operation) (hSound : w.Sound h log adopted) :
    Keeps (w.run operations) h log (adopted ++ operations.flatMap Operation.adopted) := by
  induction operations generalizing w h log adopted with
  | nil =>
    rw [List.flatMap_nil, List.append_nil]
    exact keeps_pure hSound
  | cons op operations ih =>
    obtain ⟨first, hSent, hFirst⟩ := keeps_step hSound op
    obtain ⟨later, hLater, hRest⟩ := ih hFirst
    refine ⟨first ++ later, hSent.trans hLater, ?_⟩
    rw [List.flatMap_cons, ← List.append_assoc, ← List.append_assoc]
    exact hRest

end Workshop

end FrameGraph
