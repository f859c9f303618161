import FrameGraph.Proofs.Host.Requests

/-! # Work in two hosts

What a device answers is up to its script and its counters. Where these are the same in two hosts,
work that only asks the device goes the same way in both, whatever was called or noted in them
before and whoever owns the shaders there. Unlike for heedless work, the calls are compared as
well, since those before are not the same. The orders in which collections are released may differ.
-/

namespace FrameGraph.Host

set_option autoImplicit false

variable {α β : Type} {h h' h₁ h₁' : Host} {log : List Call}

/-- The device of the second host gives the same answers as that of the first from now on. The
order of releases is no answer. -/
structure AnswersLike (h h' : Host) : Prop where
  script : h'.device.script = { h.device.script with order := h'.device.script.order }
  issued : h'.device.issued = h.device.issued
  turns : ∀ r, h'.device.requests.count r = h.device.requests.count r
  queries : h'.device.queries = h.device.queries

namespace AnswersLike

theorem refl (h : Host) : AnswersLike h h := ⟨rfl, rfl, fun _ => rfl, rfl⟩

theorem answer (hLike : AnswersLike h h') (r : Request) :
    h'.device.answer r = h.device.answer r := by
  rw [Device.answer, Device.answer, hLike.script, hLike.turns]

/-- After the same calls the answers are still the same, if all that was asked is among the
calls. -/
theorem of_sent (hLike : AnswersLike h h') (hSent : Sent h h₁ log) (hSent' : Sent h' h₁' log)
    (hCounted : h₁.uncalled = h.uncalled) (hCounted' : h₁'.uncalled = h'.uncalled) :
    AnswersLike h₁ h₁' where
  script := by rw [hSent'.script, hSent.script, ← hLike.script]
  issued := by rw [hSent'.issued, hSent.issued, hLike.issued]
  turns r := by rw [hSent'.turns hCounted', hSent.turns hCounted, hLike.turns]
  queries := by rw [hSent'.queries hCounted', hSent.queries hCounted, hLike.queries]

end AnswersLike

/-- Where the answers are the same, the work has the same result and sends the same calls, and the
answers are still the same after it. -/
def Reproducible (work : HostM α) : Prop :=
  ∀ ⦃h h'⦄, AnswersLike h h' → (work.run h').1 = (work.run h).1 ∧
    AnswersLike (work.run h).2 (work.run h').2 ∧
    ∃ log, Sent h (work.run h).2 log ∧ Sent h' (work.run h').2 log

namespace Reproducible

theorem of_sent {work : HostM α} (sends : α → List Call) (hCounts : Counts work)
    (hSent : ∀ h, Sent h (work.run h).2 (sends (work.run h).1))
    (hResult : ∀ {h h'}, AnswersLike h h' → (work.run h').1 = (work.run h).1) :
    Reproducible work := by
  intro h h' hLike
  have hSent' := hSent h'
  rw [hResult hLike] at hSent'
  exact ⟨hResult hLike, hLike.of_sent (hSent h) hSent' (hCounts h) (hCounts h'), _, hSent h,
    hSent'⟩

theorem pure (a : α) : Reproducible (Pure.pure a : HostM α) := fun h h' hLike =>
  ⟨rfl, hLike, [], .refl h, .refl h'⟩

theorem bind {work : HostM α} {next : α → HostM β} (hWork : Reproducible work)
    (hNext : ∀ h, Reproducible (next (work.run h).1)) : Reproducible (work >>= next) := by
  intro h h' hLike
  obtain ⟨hResult, hAfter, log, hSent, hSent'⟩ := hWork hLike
  obtain ⟨hLast, hEnd, rest, hRest, hRest'⟩ := hNext h hAfter
  have hRun : ∀ k, (work >>= next).run k = (next (work.run k).1).run (work.run k).2 := fun _ => rfl
  rw [hRun, hRun, hResult]
  exact ⟨hLast, hEnd, log ++ rest, hSent.trans hRest, hSent'.trans hRest'⟩

theorem memoryNeeds (image : Handle .image) : Reproducible (ask (Device.memoryNeeds image)) := by
  refine .of_sent (fun _ => [.queryMemoryNeeds image]) (.memoryNeeds image)
    (sent_memoryNeeds image) fun {h h'} hLike => ?_
  change h'.device.nextNeeds = h.device.nextNeeds
  rw [Device.nextNeeds, Device.nextNeeds, hLike.script, hLike.queries]

theorem create (info : CreateInfo) : Reproducible (ask (Device.create info)) := by
  refine .of_sent (fun outcome => [.create info outcome]) (.create info) (sent_create info)
    fun {h h'} hLike => ?_
  change (h'.device.create info).1 = (h.device.create info).1
  have hLeaves : h'.device.leavesObject info = h.device.leavesObject info := by
    rw [Device.leavesObject, Device.leavesObject, hLike.script]
  unfold Device.create
  rw [hLike.answer, hLike.issued, hLeaves]
  cases h.device.answer (.create info.kind) with
  | none => rfl
  | some code => cases h.device.leavesObject info <;> rfl

end Reproducible

section Steps

variable {s : Scope} {post : α → Prop} {work : HostM α} (hReleases : ¬ s.releases)

include hReleases

theorem Step.reproducible (hStep : Step s post work) : Reproducible work := by
  cases hStep with
  | report n _ => exact .of_sent (fun _ => []) (.report n) (sent_report n) fun _ => rfl
  | create info _ => exact .create info
  | memoryNeeds image _ => exact .memoryNeeds image
  | bindMemory image memory _ =>
    exact .of_sent (fun refusal => [.bindMemory image memory 0 refusal])
      (.bindMemory image memory) (sent_bindMemory image memory)
      fun hLike => hLike.answer .bindMemory
  | nameImage image name _ =>
    exact .of_sent (fun refusal => [.nameObject imageObjectType image.object name refusal])
      (.nameImage image name) (sent_nameImage image name) fun hLike => hLike.answer .nameObject
  | destroy o _ => exact .of_sent (fun _ => [.destroy o]) (.destroy o) (sent_destroy o) fun _ => rfl
  | record buffer command _ =>
    exact .of_sent (fun _ => [.record buffer command]) (.record buffer command)
      (sent_record buffer command) fun _ => rfl
  | shuffled _ _ hOrder => exact absurd hOrder hReleases

/-- Work that releases no collections is up to the answers only. -/
theorem KeepsTo.reproducible (hWork : KeepsTo s post work) : Reproducible work := by
  induction hWork with
  | pure _ => exact .pure _
  | bind hWork _ ihWork ihNext => exact .bind ihWork fun h => ihNext _ (hWork.result h)
  | step hStep _ => exact hStep.reproducible hReleases

end Steps

end FrameGraph.Host
