import FrameGraph.Proofs.Host.Effect

/-! # Confined work

Work is put together from single steps: a question to the device, a call, a report. It keeps to a
scope when all of its steps do, whatever comes of them. Unlike `Ends`, this says nothing of the
order of the calls, so it passes from the pieces of work to the whole without a look at what each
of them has made. What follows for every kind of step holds of all work that keeps to its scope.
-/

namespace FrameGraph

set_option autoImplicit false

/-- The kind of object that the call creates or destroys. -/
def Call.kind? : Call → Option ObjectKind
  | .create info _ => some info.kind
  | .destroy o => some o.kind
  | _ => none

/-- The call creates and destroys objects of some kinds only. -/
def Call.Concerns (kinds : List ObjectKind) (c : Call) : Prop := ∀ kind ∈ c.kind?, kind ∈ kinds

namespace Call

variable {kinds : List ObjectKind}

theorem concerns_create {info : CreateInfo} (hKind : info.kind ∈ kinds) (outcome : Creation) :
    (create info outcome).Concerns kinds := by
  rintro _ ⟨⟩
  exact hKind

theorem concerns_destroy {o : Object} (hKind : o.kind ∈ kinds) :
    (destroy o).Concerns kinds := by
  rintro _ ⟨⟩
  exact hKind

theorem concerns_idle {c : Call} (hIdle : c.kind? = none) : c.Concerns kinds := by
  intro kind hKind
  rw [hIdle] at hKind
  cases hKind

end Call

namespace Host

/-- What work may do: the calls that it may send, the notices that it may report, and whether it
may release collections, whose order is not up to it. -/
structure Scope where
  calls : Call → Prop := fun _ => True
  notices : Notice → Prop := fun _ => True
  releases : Prop := True

/-- What is in the first scope is in the second one. -/
structure Scope.Within (s t : Scope) : Prop where
  calls : ∀ c, s.calls c → t.calls c
  notices : ∀ n, s.notices n → t.notices n
  releases : s.releases → t.releases

/-- Work about objects of some kinds, which releases no collections. -/
def Scope.about (kinds : List ObjectKind) : Scope where
  calls := Call.Concerns kinds
  releases := False

theorem Scope.Within.all (s : Scope) : s.Within {} :=
  ⟨fun _ _ => trivial, fun _ _ => trivial, fun _ => trivial⟩

/-- A single step in the scope, and what is known of its result. -/
inductive Step (s : Scope) : {α : Type} → (α → Prop) → HostM α → Prop
  | report (n : Notice) (hNotice : s.notices n) : Step s (fun _ => True) (Host.report n)
  | create (info : CreateInfo) (hCall : ∀ outcome, s.calls (.create info outcome)) :
      Step s (fun _ => True) (ask (Device.create info))
  | memoryNeeds (image : Handle .image) (hCall : s.calls (.queryMemoryNeeds image)) :
      Step s (fun _ => True) (ask (Device.memoryNeeds image))
  | bindMemory (image : Handle .image) (memory : Handle .memory)
      (hCall : ∀ refusal, s.calls (.bindMemory image memory 0 refusal)) :
      Step s (fun _ => True) (ask (Device.bindMemory image memory))
  | nameImage (image : Handle .image) (name : String)
      (hCall : ∀ refusal, s.calls (.nameObject imageObjectType image.object name refusal)) :
      Step s (fun _ => True) (ask (Device.nameImage image name))
  | destroy (o : Object) (hCall : s.calls (.destroy o)) : Step s (fun _ => True) (Host.destroy o)
  | record (buffer : CommandBuffer) (command : Command)
      (hCall : s.calls (.record buffer command)) :
      Step s (fun _ => True) (Host.record buffer command)
  | shuffled {α : Type} (objects : α → List Object) (as : List α) (hReleases : s.releases) :
      Step s (fun bs => bs.Perm as) (ask (Device.shuffled objects as))

/-- The work consists of steps in the scope, and its result meets the condition. -/
inductive KeepsTo (s : Scope) : {α : Type} → (α → Prop) → HostM α → Prop
  | pure {α : Type} {post : α → Prop} {a : α} (hPost : post a) : KeepsTo s post (Pure.pure a)
  | bind {α β : Type} {mid : α → Prop} {post : β → Prop} {work : HostM α} {next : α → HostM β}
      (hWork : KeepsTo s mid work) (hNext : ∀ a, mid a → KeepsTo s post (next a)) :
      KeepsTo s post (work >>= next)
  | step {α : Type} {mid post : α → Prop} {work : HostM α} (hStep : Step s mid work)
      (hPost : ∀ a, mid a → post a) : KeepsTo s post work

variable {α β ε : Type} {s t : Scope} {post : α → Prop}

theorem Step.widen {work : HostM α} (hStep : Step s post work) (hScope : s.Within t) :
    Step t post work := by
  cases hStep with
  | report n hNotice => exact .report n (hScope.notices n hNotice)
  | create info hCall => exact .create info fun outcome => hScope.calls _ (hCall outcome)
  | memoryNeeds image hCall => exact .memoryNeeds image (hScope.calls _ hCall)
  | bindMemory image memory hCall =>
    exact .bindMemory image memory fun refusal => hScope.calls _ (hCall refusal)
  | nameImage image name hCall =>
    exact .nameImage image name fun refusal => hScope.calls _ (hCall refusal)
  | destroy o hCall => exact .destroy o (hScope.calls _ hCall)
  | record buffer command hCall => exact .record buffer command (hScope.calls _ hCall)
  | shuffled objects as hReleases => exact .shuffled objects as (hScope.releases hReleases)

namespace KeepsTo

theorem widen {work : HostM α} (hWork : KeepsTo s post work) (hScope : s.Within t) :
    KeepsTo t post work := by
  induction hWork with
  | pure hPost => exact .pure hPost
  | bind _ _ ihWork ihNext => exact .bind ihWork ihNext
  | step hStep hPost => exact .step (hStep.widen hScope) hPost

theorem mono {post' : α → Prop} {work : HostM α} (hWork : KeepsTo s post work)
    (hPost : ∀ a, post a → post' a) : KeepsTo s post' work := by
  induction hWork with
  | pure h => exact .pure (hPost _ h)
  | bind hWork _ _ ihNext => exact .bind hWork fun a ha => ihNext a ha hPost
  | step hStep h => exact .step hStep fun a ha => hPost a (h a ha)

theorem report {n : Notice} (hNotice : s.notices n) :
    KeepsTo s (fun _ => True) (Host.report n) := .step (.report n hNotice) fun _ h => h

theorem destroy {o : Object} (hCall : s.calls (.destroy o)) :
    KeepsTo s (fun _ => True) (Host.destroy o) := .step (.destroy o hCall) fun _ h => h

theorem forM {work : α → HostM Unit} {as : List α}
    (hWork : ∀ a ∈ as, KeepsTo s (fun _ => True) (work a)) :
    KeepsTo s (fun _ => True) (as.forM work) := by
  induction as with
  | nil => exact .pure trivial
  | cons a as ih =>
    obtain ⟨hHead, hTail⟩ := List.forall_mem_cons.mp hWork
    exact .bind hHead fun _ _ => ih hTail

theorem reportAll {ns : List Notice} (hNotices : ∀ n ∈ ns, s.notices n) :
    KeepsTo s (fun _ => True) (Host.reportAll ns) := .forM fun n hn => .report (hNotices n hn)

theorem destroyAll {os : List Object} (hCalls : ∀ o ∈ os, s.calls (.destroy o)) :
    KeepsTo s (fun _ => True) (Host.destroyAll os) := .forM fun o ho => .destroy (hCalls o ho)

theorem recordAll {buffer : CommandBuffer} {commands : List Command}
    (hCalls : ∀ c ∈ commands, s.calls (.record buffer c)) :
    KeepsTo s (fun _ => True) (Host.recordAll buffer commands) :=
  .forM fun c hc => .step (.record buffer c (hCalls c hc)) fun _ h => h

theorem mapM {work : α → HostM β} {as : List α}
    (hWork : ∀ a, KeepsTo s (fun _ => True) (work a)) :
    KeepsTo s (fun _ => True) (as.mapM work) := by
  induction as with
  | nil => exact .pure trivial
  | cons a as ih =>
    rw [List.mapM_cons]
    exact .bind (hWork a) fun b _ => .bind ih fun bs _ => .pure trivial

end KeepsTo

/-! ## Work that may fail -/

/-- The work keeps to the scope, and fails with some errors only. -/
def Confined (s : Scope) (errors : ε → Prop) (work : HostE ε α) : Prop :=
  KeepsTo s (fun result => ∀ e, result = .error e → errors e) work.run

namespace Confined

variable {errors : ε → Prop}

theorem pure (a : α) : Confined s errors (Pure.pure a : HostE ε α) := KeepsTo.pure nofun

theorem throw {e : ε} (hError : errors e) :
    Confined s errors (MonadExcept.throw e : HostE ε α) := by
  refine KeepsTo.pure ?_
  rintro _ ⟨⟩
  exact hError

theorem bind {work : HostE ε α} {next : α → HostE ε β} (hWork : Confined s errors work)
    (hNext : ∀ a, Confined s errors (next a)) : Confined s errors (work >>= next) := by
  unfold Confined
  rw [ExceptT.run_bind]
  refine KeepsTo.bind hWork fun result hResult => ?_
  cases result with
  | ok a => exact hNext a
  | error e => exact throw (hResult e rfl)

theorem always_bind {work : HostM α} {next : α → HostE ε β} (hWork : KeepsTo s post work)
    (hNext : ∀ a, post a → Confined s errors (next a)) :
    Confined s errors (Host.always work >>= next) := by
  have hRun : (Host.always work >>= next).run = work >>= fun a => (next a).run := rfl
  unfold Confined
  rw [hRun]
  exact .bind hWork hNext

theorem always {work : HostM α} (hWork : KeepsTo s post work) :
    Confined s errors (Host.always work : HostE ε α) :=
  KeepsTo.bind hWork fun _ _ => KeepsTo.pure nofun

theorem ofExcept_bind {result : Except ε α} {next : α → HostE ε β}
    (hOk : ∀ a, result = .ok a → Confined s errors (next a))
    (hError : ∀ e, result = .error e → errors e) :
    Confined s errors (ofExcept result >>= next) := by
  cases result with
  | ok a => exact hOk a rfl
  | error e => exact throw (hError e rfl)

theorem onFailure {handler : ε → HostM Unit} {work : HostE ε α}
    (hHandler : ∀ e, KeepsTo s (fun _ => True) (handler e)) (hWork : Confined s errors work) :
    Confined s errors (Host.onFailure handler work) := by
  refine .always_bind hWork fun result hResult => ?_
  cases result with
  | ok a => exact .pure a
  | error e => exact .always_bind (hHandler e) fun _ _ => .throw (hResult e rfl)

theorem cleaningUp {cleanup : HostM Unit} {work : HostE ε α}
    (hCleanup : KeepsTo s (fun _ => True) cleanup) (hWork : Confined s errors work) :
    Confined s errors (Host.cleaningUp cleanup work) := onFailure (fun _ => hCleanup) hWork

theorem acquire {info : CreateInfo} {failure : ResultCode → ε}
    (hCreate : ∀ outcome, s.calls (.create info outcome))
    (hDestroy : ∀ id, s.calls (.destroy ⟨info.kind, id⟩)) (hError : ∀ code, errors (failure code)) :
    Confined s errors (Host.acquire info failure) := by
  refine .always_bind (.step (.create info hCreate) fun _ h => h) fun outcome _ => ?_
  cases outcome with
  | made id => exact .pure _
  | refused code leftover =>
    refine .always_bind (.destroyAll fun o ho => ?_) fun _ _ => .throw (hError code)
    obtain ⟨id, -, rfl⟩ := List.mem_map.mp ho
    exact hDestroy id

theorem acquire_about {kinds : List ObjectKind} {info : CreateInfo} (hKind : info.kind ∈ kinds)
    (failure : ResultCode → ε) :
    Confined (.about kinds) (fun _ => True) (Host.acquire info failure) :=
  .acquire (Call.concerns_create hKind) (fun _ => Call.concerns_destroy hKind) fun _ => trivial

theorem adapt {ε' : Type} {f : ε → ε'} {errors : ε' → Prop} {work : HostE ε α}
    (hWork : Confined s (fun e => errors (f e)) work) : Confined s errors (work.adapt f) := by
  refine KeepsTo.bind hWork fun result hResult => KeepsTo.pure fun e hError => ?_
  cases result with
  | ok a => cases hError
  | error e' =>
    cases hError
    exact hResult e' rfl

theorem mono {errors' : ε → Prop} {work : HostE ε α} (hWork : Confined s errors work)
    (hErrors : ∀ e, errors e → errors' e) : Confined s errors' work :=
  KeepsTo.mono hWork fun _ hResult e hError => hErrors e (hResult e hError)

theorem widen {work : HostE ε α} (hWork : Confined s errors work) (hScope : s.Within t) :
    Confined t errors work := KeepsTo.widen hWork hScope

end Confined

/-! ## What work comes to -/

theorem Step.result {work : HostM α} (hStep : Step s post work) (h : Host) :
    post (work.run h).1 := by
  cases hStep with
  | shuffled objects as _ => exact h.device.script.shuffled_perm objects as
  | _ => trivial

theorem KeepsTo.result {work : HostM α} (hWork : KeepsTo s post work) (h : Host) :
    post (work.run h).1 := by
  induction hWork generalizing h with
  | pure hPost => exact hPost
  | bind _ _ ihWork ihNext => exact ihNext _ (ihWork h) _
  | step hStep hPost => exact hPost _ (hStep.result h)

theorem Confined.error {errors : ε → Prop} {work : HostE ε α} (hWork : Confined s errors work)
    {h : Host} {e : ε} (hError : (work.run.run h).1 = .error e) : errors e :=
  KeepsTo.result hWork h e hError

/-- Work that cannot fail sends only some calls. -/
def Within (calls : Call → Prop) (work : HostM α) : Prop :=
  ∀ h, ∃ log, Sent h (work.run h).2 log ∧ ∀ c ∈ log, calls c

theorem Within.mono {calls calls' : Call → Prop} {work : HostM α} (hWork : Within calls work)
    (hCalls : ∀ c, calls c → calls' c) : Within calls' work := by
  intro h
  obtain ⟨log, hSent, hLog⟩ := hWork h
  exact ⟨log, hSent, fun c hc => hCalls c (hLog c hc)⟩

theorem Step.within {work : HostM α} (hStep : Step s post work) : Within s.calls work := by
  have hOne : ∀ {h h' : Host} {c : Call}, Sent h h' [c] → s.calls c →
      ∃ log, Sent h h' log ∧ ∀ c ∈ log, s.calls c := fun hSent hCall =>
    ⟨_, hSent, List.forall_mem_singleton.mpr hCall⟩
  intro h
  cases hStep with
  | report n _ => exact ⟨[], sent_report n h, List.forall_mem_nil _⟩
  | create info hCall => exact hOne (sent_create info h) (hCall _)
  | memoryNeeds image hCall => exact hOne (sent_memoryNeeds image h) hCall
  | bindMemory image memory hCall => exact hOne (sent_bindMemory image memory h) (hCall _)
  | nameImage image name hCall => exact hOne (sent_nameImage image name h) (hCall _)
  | destroy o hCall => exact hOne (sent_destroy o h) hCall
  | record buffer command hCall => exact hOne (sent_record buffer command h) hCall
  | shuffled objects as _ => exact ⟨[], .refl h, List.forall_mem_nil _⟩

theorem KeepsTo.within {work : HostM α} (hWork : KeepsTo s post work) : Within s.calls work := by
  induction hWork with
  | pure _ => exact fun h => ⟨[], .refl h, List.forall_mem_nil _⟩
  | @bind _ _ _ _ work next hWork _ ihWork ihNext =>
    intro h
    obtain ⟨log, hSent, hLog⟩ := ihWork h
    obtain ⟨rest, hRest, hNext⟩ := ihNext _ (hWork.result h) (work.run h).2
    exact ⟨log ++ rest, hSent.trans hRest, List.forall_mem_append.mpr ⟨hLog, hNext⟩⟩
  | step hStep _ => exact hStep.within

/-! ## What work leaves alone -/

variable {γ : Type} {view : Host → γ}

/-- After the work the host shows what it showed before. -/
def Preserves (view : Host → γ) (work : HostM α) : Prop := ∀ h, view (work.run h).2 = view h

/-- Who owns the shaders, and the key of the latest one. -/
def ownership (h : Host) : List Nat × Nat := (h.owners, h.lastKey)

/-- What every step preserves is preserved by all work in the scope. -/
theorem KeepsTo.preserves_of_steps {work : HostM α} (hWork : KeepsTo s post work)
    (hSteps : ∀ {β : Type} {mid : β → Prop} {step : HostM β}, Step s mid step →
      Preserves view step) : Preserves view work := by
  induction hWork with
  | pure _ => exact fun _ => rfl
  | @bind _ _ _ _ work next hWork _ ihWork ihNext =>
    intro h
    exact (ihNext _ (hWork.result h) (work.run h).2).trans (ihWork h)
  | step hStep _ => exact hSteps hStep

theorem KeepsTo.preserves {work : HostM α} (hWork : KeepsTo s post work)
    (hDevice : ∀ h d, view { h with device := d } = view h)
    (hNotices : ∀ n, s.notices n → Preserves view (Host.report n)) : Preserves view work := by
  refine hWork.preserves_of_steps fun hStep => ?_
  cases hStep with
  | report n hNotice => exact hNotices n hNotice
  | _ => exact fun h => hDevice h _

theorem KeepsTo.preserves_ownership {work : HostM α} (hWork : KeepsTo s post work) :
    Preserves ownership work := hWork.preserves (fun _ _ => rfl) fun _ _ _ => rfl

end Host

end FrameGraph
