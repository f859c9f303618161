import FrameGraph.Host
import FrameGraph.Proofs.Device.Log
import Mathlib.Data.List.Nodup

/-! # What work does to the device

Whatever runs in the host only adds calls to those of the device, and the identifiers of the
objects made in them are the next ones in a row. `Ends` says how a piece of work may end: the
calls it adds when it succeeds and when it fails. Its rules follow the ways in which work is put
together.
-/

namespace FrameGraph.Host

set_option autoImplicit false

/-- The second host is the first one after the device was sent the calls. -/
structure Sent (h h' : Host) (log : List Call) : Prop where
  calls : h'.device.calls = h.device.calls ++ log
  script : h'.device.script = h.device.script
  issued : h'.device.issued = h.device.issued + (Log.made log).length
  ids : (Log.made log).map Object.id =
    List.range' (h.device.issued + 1) (Log.made log).length

namespace Sent

variable {h h₁ h₂ : Host} {log next : List Call}

theorem refl (h : Host) : Sent h h [] := ⟨by simp, rfl, rfl, rfl⟩

/-- Only the device counts. -/
theorem of_device_eq (hDevice : h₁.device = h.device) : Sent h h₁ [] := by
  constructor <;> simp [hDevice]

theorem trans (hFirst : Sent h h₁ log) (hNext : Sent h₁ h₂ next) : Sent h h₂ (log ++ next) where
  calls := by rw [hNext.calls, hFirst.calls, List.append_assoc]
  script := hNext.script.trans hFirst.script
  issued := by
    rw [hNext.issued, hFirst.issued, Log.made_append, List.length_append]
    omega
  ids := by
    have hStart : h₁.device.issued + 1 = h.device.issued + 1 + (Log.made log).length := by
      rw [hFirst.issued]
      omega
    rw [Log.made_append, List.map_append, hFirst.ids, hNext.ids, List.length_append, hStart,
      List.range'_append_1]

theorem unique (hSent : Sent h h₁ log) (hNext : Sent h h₁ next) : log = next :=
  List.append_cancel_left (hSent.calls.symm.trans hNext.calls)

theorem nodup (hSent : Sent h h₁ log) : (Log.made log).Nodup := by
  apply List.Nodup.of_map Object.id
  rw [hSent.ids]
  exact List.nodup_range'

theorem issued_mono (hSent : Sent h h₁ log) : h.device.issued ≤ h₁.device.issued := by
  rw [hSent.issued]
  exact Nat.le_add_right _ _

theorem issued_lt (hSent : Sent h h₁ log) {o : Object} (ho : o ∈ Log.made log) :
    h.device.issued < o.id := by
  have hId : o.id ∈ (Log.made log).map Object.id := List.mem_map_of_mem ho
  rw [hSent.ids] at hId
  have := (List.mem_range'_1.mp hId).1
  omega

theorem le_issued (hSent : Sent h h₁ log) {o : Object} (ho : o ∈ Log.made log) :
    o.id ≤ h₁.device.issued := by
  have hId : o.id ∈ (Log.made log).map Object.id := List.mem_map_of_mem ho
  rw [hSent.ids] at hId
  have := (List.mem_range'_1.mp hId).2
  rw [hSent.issued]
  omega

end Sent

/-! ## The device is asked and told -/

theorem sent_append (h : Host) {c : Call} (hMade : c.made = []) {d : Device}
    (hCalls : d.calls = h.device.calls ++ [c]) (hScript : d.script = h.device.script)
    (hIssued : d.issued = h.device.issued) : Sent h { h with device := d } [c] where
  calls := hCalls
  script := hScript
  issued := by simp [Log.made, hMade, hIssued]
  ids := by simp [Log.made, hMade]

theorem sent_create (info : CreateInfo) (h : Host) :
    Sent h ((ask (Device.create info)).run h).2
      [.create info ((ask (Device.create info)).run h).1] := by
  change Sent h { h with device := (h.device.create info).2 }
    [.create info (h.device.create info).1]
  unfold Device.create
  cases h.device.answer (.create info.kind) with
  | none => exact ⟨rfl, rfl, rfl, rfl⟩
  | some code =>
    cases h.device.leavesObject info with
    | true => exact ⟨rfl, rfl, rfl, rfl⟩
    | false => exact ⟨rfl, rfl, rfl, rfl⟩

theorem sent_destroy (o : Object) (h : Host) : Sent h ((destroy o).run h).2 [.destroy o] :=
  sent_append h rfl rfl rfl rfl

theorem sent_record (buffer : CommandBuffer) (command : Command) (h : Host) :
    Sent h ((record buffer command).run h).2 [.record buffer command] :=
  sent_append h rfl rfl rfl rfl

theorem sent_memoryNeeds (image : Handle .image) (h : Host) :
    Sent h ((ask (Device.memoryNeeds image)).run h).2 [.queryMemoryNeeds image] :=
  sent_append h rfl rfl rfl rfl

theorem sent_bindMemory (image : Handle .image) (memory : Handle .memory) (h : Host) :
    Sent h ((ask (Device.bindMemory image memory)).run h).2
      [.bindMemory image memory 0 ((ask (Device.bindMemory image memory)).run h).1] :=
  sent_append h rfl rfl rfl rfl

theorem sent_nameImage (image : Handle .image) (name : String) (h : Host) :
    Sent h ((ask (Device.nameImage image name)).run h).2
      [.nameObject imageObjectType image.object name
        ((ask (Device.nameImage image name)).run h).1] :=
  sent_append h rfl rfl rfl rfl

/-! ## Lists of work -/

/-- A list of pieces of work sends what its members send, one after the other. -/
theorem sent_forM {α : Type} {work : α → HostM Unit} {sends : α → List Call}
    (hWork : ∀ a h, Sent h ((work a).run h).2 (sends a)) (as : List α) (h : Host) :
    Sent h ((as.forM work).run h).2 (as.flatMap sends) := by
  induction as generalizing h with
  | nil => exact .refl h
  | cons a as ih =>
    rw [List.flatMap_cons]
    exact (hWork a h).trans (ih _)

theorem sent_destroyAll (os : List Object) (h : Host) :
    Sent h ((destroyAll os).run h).2 (os.map .destroy) := by
  rw [List.map_eq_flatMap]
  exact sent_forM sent_destroy os h

theorem sent_recordAll (buffer : CommandBuffer) (commands : List Command) (h : Host) :
    Sent h ((recordAll buffer commands).run h).2 (commands.map (.record buffer)) := by
  rw [List.map_eq_flatMap]
  exact sent_forM (sent_record buffer) commands h

theorem sent_report (n : Notice) (h : Host) : Sent h ((report n).run h).2 [] :=
  .of_device_eq rfl

theorem sent_reportAll (ns : List Notice) (h : Host) : Sent h ((reportAll ns).run h).2 [] := by
  have hSent := sent_forM sent_report ns h
  rwa [List.flatMap_eq_nil_iff.mpr fun _ _ => rfl] at hSent

/-! ## Work that may fail -/

/-- The work ends with a result and calls as in `done`, or with an error and calls as in
`failed`. -/
def Ends {α ε : Type} (work : HostE ε α) (h : Host) (done : α → List Call → Prop)
    (failed : ε → List Call → Prop) : Prop :=
  ∃ log, Sent h (work.run.run h).2 log ∧
    match (work.run.run h).1 with
    | .ok a => done a log
    | .error e => failed e log

namespace Ends

variable {α β ε : Type} {h : Host} {work : HostE ε α} {done : α → List Call → Prop}
  {failed : ε → List Call → Prop}

theorem of_ok {a : α} {h₁ : Host} {log : List Call} (hRun : work.run.run h = (.ok a, h₁))
    (hSent : Sent h h₁ log) (hDone : done a log) : Ends work h done failed := by
  refine ⟨log, ?_, ?_⟩
  · rw [hRun]
    exact hSent
  · rw [hRun]
    exact hDone

theorem of_error {e : ε} {h₁ : Host} {log : List Call} (hRun : work.run.run h = (.error e, h₁))
    (hSent : Sent h h₁ log) (hFailed : failed e log) : Ends work h done failed := by
  refine ⟨log, ?_, ?_⟩
  · rw [hRun]
    exact hSent
  · rw [hRun]
    exact hFailed

theorem cases (hWork : Ends work h done failed) :
    (∃ a h₁ log, work.run.run h = (.ok a, h₁) ∧ Sent h h₁ log ∧ done a log) ∨
      ∃ e h₁ log, work.run.run h = (.error e, h₁) ∧ Sent h h₁ log ∧ failed e log := by
  obtain ⟨log, hSent, hEnd⟩ := hWork
  rcases hRun : work.run.run h with ⟨e | a, h₁⟩
  · rw [hRun] at hSent hEnd
    exact .inr ⟨e, h₁, log, rfl, hSent, hEnd⟩
  · rw [hRun] at hSent hEnd
    exact .inl ⟨a, h₁, log, rfl, hSent, hEnd⟩

theorem mono {done' : α → List Call → Prop} {failed' : ε → List Call → Prop}
    (hWork : Ends work h done failed) (hDone : ∀ a log, done a log → done' a log)
    (hFailed : ∀ e log, failed e log → failed' e log) : Ends work h done' failed' := by
  rcases hWork.cases with ⟨a, h₁, log, hRun, hSent, hEnd⟩ | ⟨e, h₁, log, hRun, hSent, hEnd⟩
  · exact of_ok hRun hSent (hDone a log hEnd)
  · exact of_error hRun hSent (hFailed e log hEnd)

theorem mono_failed {failed' : ε → List Call → Prop} (hWork : Ends work h done failed)
    (hFailed : ∀ e log, failed e log → failed' e log) : Ends work h done failed' :=
  hWork.mono (fun _ _ hDone => hDone) hFailed

theorem pure {a : α} (hDone : done a []) : Ends (Pure.pure a : HostE ε α) h done failed :=
  of_ok rfl (.refl h) hDone

theorem throw {e : ε} (hFailed : failed e []) :
    Ends (MonadExcept.throw e : HostE ε α) h done failed :=
  of_error rfl (.refl h) hFailed

theorem always {work : HostM α} {log : List Call} (hSent : Sent h (work.run h).2 log)
    (hDone : done (work.run h).1 log) : Ends (always work : HostE ε α) h done failed :=
  of_ok (run_always work h) hSent hDone

/-- What follows starts in the host in which the work ended. -/
theorem bind_run {next : α → HostE ε β} {doneNext : β → List Call → Prop}
    (hWork : Ends work h done failed)
    (hNext : ∀ a log h₁, work.run.run h = (.ok a, h₁) → done a log → Sent h h₁ log →
      Ends (next a) h₁ (fun b rest => doneNext b (log ++ rest))
        (fun e rest => failed e (log ++ rest))) :
    Ends (work >>= next) h doneNext failed := by
  rcases hWork.cases with ⟨a, h₁, log, hRun, hSent, hDone⟩ | ⟨e, h₁, log, hRun, hSent, hFailed⟩
  · have hBind : (work >>= next).run.run h = (next a).run.run h₁ := by rw [run_bind, hRun]
    rcases (hNext a log h₁ hRun hDone hSent).cases with
      ⟨b, h₂, rest, hRest, hSent', hEnd⟩ | ⟨e, h₂, rest, hRest, hSent', hEnd⟩
    · exact of_ok (hBind.trans hRest) (hSent.trans hSent') hEnd
    · exact of_error (hBind.trans hRest) (hSent.trans hSent') hEnd
  · exact of_error (by rw [run_bind, hRun]) hSent hFailed

/-- What follows starts in a host to which the first calls were sent. -/
theorem bind {next : α → HostE ε β} {doneNext : β → List Call → Prop}
    (hWork : Ends work h done failed)
    (hNext : ∀ a log h₁, done a log → Sent h h₁ log →
      Ends (next a) h₁ (fun b rest => doneNext b (log ++ rest))
        (fun e rest => failed e (log ++ rest))) :
    Ends (work >>= next) h doneNext failed :=
  hWork.bind_run fun a log h₁ _ => hNext a log h₁

theorem ofExcept_bind {result : Except ε α} {next : α → HostE ε β}
    {done : β → List Call → Prop} (hOk : ∀ a, result = .ok a → Ends (next a) h done failed)
    (hError : ∀ e, result = .error e → failed e []) :
    Ends (ofExcept result >>= next) h done failed := by
  cases result with
  | ok a => exact hOk a rfl
  | error e => exact throw (hError e rfl)

/-- Work that sends nothing, such as a report. -/
theorem quietly {work : HostM α} {next : α → HostE ε β} {done : β → List Call → Prop}
    (hSent : Sent h (work.run h).2 [])
    (hNext : Ends (next (work.run h).1) (work.run h).2 done failed) :
    Ends (Host.always work >>= next) h done failed := by
  have hBind : (Host.always work >>= next).run.run h =
      (next (work.run h).1).run.run (work.run h).2 := by rw [run_bind, run_always]
  rcases hNext.cases with ⟨b, h₁, log, hRun, hNext, hDone⟩ | ⟨e, h₁, log, hRun, hNext, hFailed⟩
  · exact of_ok (hBind.trans hRun) (hSent.trans hNext) hDone
  · exact of_error (hBind.trans hRun) (hSent.trans hNext) hFailed

/-- A handler adds its calls to those of the failure. They may be up to the script. -/
theorem onFailure {handler : ε → HostM Unit} (undo : ε → List Call)
    (hHandler : ∀ e h₁, h₁.device.script = h.device.script →
      Sent h₁ ((handler e).run h₁).2 (undo e))
    (hWork : Ends work h done fun e log => failed e (log ++ undo e)) :
    Ends (onFailure handler work) h done failed := by
  rcases hWork.cases with ⟨a, h₁, log, hRun, hSent, hDone⟩ | ⟨e, h₁, log, hRun, hSent, hFailed⟩
  · exact of_ok (by rw [run_onFailure, hRun]) hSent hDone
  · exact of_error (by rw [run_onFailure, hRun]) (hSent.trans (hHandler e h₁ hSent.script)) hFailed

theorem cleaningUp {cleanup : HostM Unit} (os : List Object)
    (hCleanup : ∀ h₁, h₁.device.script = h.device.script →
      Sent h₁ (cleanup.run h₁).2 (os.map .destroy))
    (hWork : Ends work h done fun e log => failed e (log ++ os.map .destroy)) :
    Ends (cleaningUp cleanup work) h done failed :=
  onFailure (fun _ => os.map .destroy) (fun _ h₁ => hCleanup h₁) hWork

/-- Work on top of what was built before, which goes if the work fails. -/
theorem undoing {cleanup : HostM Unit} {before : List Call} {os later : List Object}
    {Reason : ε → Prop} (hBuilt : Log.Builds later before os)
    (hCleanup : ∀ h₁, h₁.device.script = h.device.script →
      Sent h₁ (cleanup.run h₁).2 (os.map .destroy))
    (hWork : Ends work h done fun e log => Log.Reverts (os ++ later) log ∧ Reason e) :
    Ends (Host.cleaningUp cleanup work) h done fun e log =>
      Log.Reverts later (before ++ log) ∧ Reason e := by
  refine cleaningUp os hCleanup (hWork.mono_failed ?_)
  rintro e log ⟨hReverts, hReason⟩
  exact ⟨hReverts.after hBuilt, hReason⟩

theorem adapt {ε' : Type} {f : ε → ε'} {failed : ε' → List Call → Prop}
    (hWork : Ends work h done fun e log => failed (f e) log) :
    Ends (work.adapt f) h done failed := by
  have hAdapt : (work.adapt f).run.run h =
      ((work.run.run h).1.mapError f, (work.run.run h).2) := rfl
  rcases hWork.cases with ⟨a, h₁, log, hRun, hSent, hDone⟩ | ⟨e, h₁, log, hRun, hSent, hFailed⟩
  · exact of_ok (by rw [hAdapt, hRun]; rfl) hSent hDone
  · exact of_error (by rw [hAdapt, hRun]; rfl) hSent hFailed

end Ends

/-- A request made an object, or was refused and left nothing behind. -/
theorem ends_acquire {ε : Type} (info : CreateInfo) (failure : ResultCode → ε) (h : Host) :
    Ends (acquire info failure) h (fun handle log => log = [.create info (.made handle.id)])
      fun e log => ∃ code, h.device.answer (.create info.kind) = some code ∧ e = failure code ∧
        (log = [.create info (.refused code none)] ∨
          ∃ id, log = [.create info (.refused code (some id)), .destroy ⟨info.kind, id⟩]) := by
  have hRun := run_acquire info failure h
  unfold Device.create at hRun
  cases hAnswer : h.device.answer (.create info.kind) with
  | none =>
    simp only [hAnswer] at hRun
    refine Ends.of_ok hRun ⟨rfl, rfl, rfl, rfl⟩ rfl
  | some code =>
    simp only [hAnswer] at hRun
    cases hLeaves : h.device.leavesObject info with
    | false =>
      simp only [hLeaves] at hRun
      exact Ends.of_error hRun ⟨rfl, rfl, rfl, rfl⟩ ⟨code, rfl, rfl, .inl rfl⟩
    | true =>
      simp only [hLeaves, if_true] at hRun
      refine Ends.of_error hRun ⟨?_, rfl, rfl, rfl⟩ ⟨code, rfl, rfl, .inr ⟨_, rfl⟩⟩
      simp [Device.destroy, Device.append, Device.receive]

/-- Only a refused pipeline may be handed over all the same. -/
theorem ends_acquire_outright {ε : Type} (info : CreateInfo) (failure : ResultCode → ε) (h : Host)
    (hKind : info.kind ≠ .pipeline) : Ends (acquire info failure) h
      (fun handle log => h.device.answer (.create info.kind) = none ∧
        handle.id = h.device.issued + 1 ∧ log = [.create info (.made handle.id)])
      fun e log => ∃ code, h.device.answer (.create info.kind) = some code ∧ e = failure code ∧
        log = [.create info (.refused code none)] := by
  have hRun := run_acquire info failure h
  have hLeaves : h.device.leavesObject info = false := by simp [Device.leavesObject, hKind]
  unfold Device.create at hRun
  cases hAnswer : h.device.answer (.create info.kind) with
  | none =>
    simp only [hAnswer] at hRun
    exact Ends.of_ok hRun ⟨rfl, rfl, rfl, rfl⟩ ⟨rfl, rfl, rfl⟩
  | some code =>
    simp only [hAnswer, hLeaves] at hRun
    exact Ends.of_error hRun ⟨rfl, rfl, rfl, rfl⟩ ⟨code, rfl, rfl, rfl⟩

end FrameGraph.Host
