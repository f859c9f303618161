import FrameGraph.Proofs.Host.Confinement

/-! # Notices influence nothing

Hosts that differ in nothing but their notices are alike. Work is heedless when it gives the same
in hosts that are alike and leaves them alike, as everything does that reads nothing but what it
asks the device for.
-/

namespace FrameGraph.Host

set_option autoImplicit false

structure Alike (h h' : Host) : Prop where
  device : h.device = h'.device
  owners : h.owners = h'.owners
  lastKey : h.lastKey = h'.lastKey

theorem Alike.symm {h h' : Host} (hAlike : h.Alike h') : h'.Alike h :=
  ⟨hAlike.device.symm, hAlike.owners.symm, hAlike.lastKey.symm⟩

theorem Alike.trans {h h₁ h₂ : Host} (hFirst : h.Alike h₁) (hNext : h₁.Alike h₂) : h.Alike h₂ :=
  ⟨hFirst.device.trans hNext.device, hFirst.owners.trans hNext.owners,
    hFirst.lastKey.trans hNext.lastKey⟩

theorem run_reportAll (ns : List Notice) (h : Host) :
    (reportAll ns).run h = ((), { h with notices := h.notices ++ ns }) := by
  induction ns generalizing h with
  | nil =>
    rw [List.append_nil]
    rfl
  | cons n ns ih =>
    rw [List.append_cons]
    exact ih ((report n).run h).2

theorem notices_recordAll (buffer : CommandBuffer) (commands : List Command) (h : Host) :
    ((recordAll buffer commands).run h).2.notices = h.notices := by
  induction commands generalizing h with
  | nil => rfl
  | cons c commands ih => exact ih ((record buffer c).run h).2

/-- What is reported is added to the notices and changes nothing else. -/
theorem alike_reportAll (ns : List Notice) (h : Host) : h.Alike ((reportAll ns).run h).2 := by
  rw [run_reportAll]
  exact ⟨rfl, rfl, rfl⟩

variable {α β : Type}

def Heedless (work : HostM α) : Prop :=
  ∀ ⦃h h'⦄, h.Alike h' → (work.run h).1 = (work.run h').1 ∧ (work.run h).2.Alike (work.run h').2

namespace Heedless

theorem pure (a : α) : Heedless (Pure.pure a : HostM α) := fun _ _ hAlike => ⟨rfl, hAlike⟩

theorem bind {work : HostM α} {next : α → HostM β} (hWork : Heedless work)
    (hNext : ∀ h, Heedless (next (work.run h).1)) : Heedless (work >>= next) := by
  intro h h' hAlike
  obtain ⟨hSame, hLeft⟩ := hWork hAlike
  have hBind : ∀ h, (work >>= next).run h = (next (work.run h).1).run (work.run h).2 :=
    fun _ => rfl
  rw [hBind, hBind, ← hSame]
  exact hNext h hLeft

theorem ask (f : Device → α × Device) : Heedless (Host.ask f) := fun _ _ hAlike =>
  ⟨congrArg (fun d => (f d).1) hAlike.device, congrArg (fun d => (f d).2) hAlike.device,
    hAlike.owners, hAlike.lastKey⟩

theorem tell (f : Device → Device) : Heedless (Host.tell f) := fun _ _ hAlike =>
  ⟨rfl, congrArg f hAlike.device, hAlike.owners, hAlike.lastKey⟩

theorem forM {work : α → HostM Unit} (hWork : ∀ a, Heedless (work a)) (as : List α) :
    Heedless (as.forM work) := by
  induction as with
  | nil => exact .pure ()
  | cons a as ih => exact .bind (hWork a) fun _ => ih

end Heedless

theorem Step.heedless {s : Scope} {post : α → Prop} {work : HostM α} (hStep : Step s post work) :
    Heedless work := by
  cases hStep with
  | report n _ => exact fun _ _ hAlike => ⟨rfl, hAlike.device, hAlike.owners, hAlike.lastKey⟩
  | destroy | record => exact .tell _
  | _ => exact .ask _

theorem KeepsTo.heedless {s : Scope} {post : α → Prop} {work : HostM α}
    (hWork : KeepsTo s post work) : Heedless work := by
  induction hWork with
  | pure _ => exact .pure _
  | bind hWork _ ihWork ihNext => exact .bind ihWork fun h => ihNext _ (hWork.result h)
  | step hStep _ => exact hStep.heedless

end FrameGraph.Host
