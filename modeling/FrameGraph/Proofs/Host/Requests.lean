import FrameGraph.Proofs.Host.Confinement
import FrameGraph.Proofs.Host.Effect

/-! # How often the device was asked

What a device answers is up to its script and to how often it was asked before. Whatever it is asked
is among its calls, so the calls that it was sent tell its next answers.
-/

namespace FrameGraph

set_option autoImplicit false

namespace Call

def request? : Call → Option Request
  | .create info _ => some (.create info.kind)
  | .bindMemory _ _ _ _ => some .bindMemory
  | .nameObject _ _ _ _ => some .nameObject
  | _ => none

def isQuery : Call → Bool
  | .queryMemoryNeeds _ => true
  | _ => false

end Call

namespace Log

def requests (log : List Call) : List Request := log.filterMap Call.request?

def queries (log : List Call) : Nat := log.countP Call.isQuery

theorem requests_append (log next : List Call) :
    requests (log ++ next) = requests log ++ requests next := List.filterMap_append

theorem queries_append (log next : List Call) :
    queries (log ++ next) = queries log + queries next := List.countP_append

end Log

namespace Device

/-- The answer to the request after it is made that many more times. -/
def answerAfter (d : Device) (times : Nat) (r : Request) : Option ResultCode :=
  d.script.refusal r (d.requests.count r + times + 1)

/-- The answer to the next query. -/
def nextNeeds (d : Device) : MemoryNeeds := d.script.needs d.queries

/-- What was counted and is not among the calls. -/
def uncalled (d : Device) : (Request → Int) × Int :=
  (fun r => d.requests.count r - (Log.requests d.calls).count r, d.queries - Log.queries d.calls)

theorem uncalled_append {d d' : Device} (c : Call) (hCalls : d'.calls = d.calls ++ [c])
    (hRequests : d'.requests = c.request?.toList ++ d.requests)
    (hQueries : d'.queries = d.queries + Log.queries [c]) : d'.uncalled = d.uncalled := by
  have hLast : Log.requests [c] = c.request?.toList := by
    rw [Log.requests]
    cases hRequest : c.request? with
    | none => rw [List.filterMap_cons_none hRequest]; rfl
    | some r => rw [List.filterMap_cons_some hRequest]; rfl
  unfold uncalled
  rw [hCalls, hRequests, hQueries, Log.requests_append, Log.queries_append, hLast]
  refine Prod.ext (funext fun r => ?_) ?_
  · simp only [List.count_append]
    omega
  · simp only
    omega

end Device

namespace Host

def uncalled (h : Host) : (Request → Int) × Int := h.device.uncalled

/-- Whatever the device is asked in the course of the work is among its calls. -/
def Counts {α : Type} (work : HostM α) : Prop := Preserves uncalled work

section Answers

variable {h h' : Host} {log : List Call} (hSent : Sent h h' log)
  (hCounted : h'.uncalled = h.uncalled)

include hSent hCounted

theorem Sent.turns (r : Request) : h'.device.requests.count r =
    h.device.requests.count r + (Log.requests log).count r := by
  have hCount := congrFun (congrArg Prod.fst hCounted) r
  simp only [uncalled, Device.uncalled, hSent.calls, Log.requests_append, List.count_append]
    at hCount
  omega

theorem Sent.queries : h'.device.queries = h.device.queries + Log.queries log := by
  have hCount := congrArg Prod.snd hCounted
  simp only [uncalled, Device.uncalled, hSent.calls, Log.queries_append] at hCount
  omega

theorem Sent.answerAfter (times : Nat) (r : Request) : h'.device.answerAfter times r =
    h.device.answerAfter ((Log.requests log).count r + times) r := by
  rw [Device.answerAfter, Device.answerAfter, hSent.script, hSent.turns hCounted,
    Nat.add_assoc _ _ times]

theorem Sent.answer_of_not_mem {r : Request} (hAsked : r ∉ Log.requests log) :
    h'.device.answer r = h.device.answer r := by
  have hAnswer := hSent.answerAfter hCounted 0 r
  rwa [List.count_eq_zero.mpr hAsked] at hAnswer

theorem Sent.nextNeeds (hQueries : Log.queries log = 0) :
    h'.device.nextNeeds = h.device.nextNeeds := by
  rw [Device.nextNeeds, Device.nextNeeds, hSent.script, hSent.queries hCounted, hQueries,
    Nat.add_zero]

end Answers

namespace Counts

theorem report (n : Notice) : Counts (Host.report n) := fun _ => rfl

theorem destroy (o : Object) : Counts (Host.destroy o) := fun h =>
  Device.uncalled_append (d := h.device) (.destroy o) rfl rfl rfl

theorem record (buffer : CommandBuffer) (command : Command) :
    Counts (Host.record buffer command) := fun h =>
  Device.uncalled_append (d := h.device) (.record buffer command) rfl rfl rfl

theorem create (info : CreateInfo) : Counts (ask (Device.create info)) := by
  intro h
  change (h.device.create info).2.uncalled = h.device.uncalled
  unfold Device.create
  cases h.device.answer (.create info.kind) with
  | none => exact Device.uncalled_append _ rfl rfl rfl
  | some code =>
    cases hLeaves : h.device.leavesObject info with
    | true => exact Device.uncalled_append _ rfl rfl rfl
    | false => exact Device.uncalled_append _ rfl rfl rfl

theorem memoryNeeds (image : Handle .image) : Counts (ask (Device.memoryNeeds image)) :=
  fun _ => Device.uncalled_append _ rfl rfl rfl

theorem bindMemory (image : Handle .image) (memory : Handle .memory) :
    Counts (ask (Device.bindMemory image memory)) :=
  fun _ => Device.uncalled_append _ rfl rfl rfl

theorem nameImage (image : Handle .image) (name : String) :
    Counts (ask (Device.nameImage image name)) :=
  fun _ => Device.uncalled_append _ rfl rfl rfl

end Counts

theorem Step.counts {α : Type} {s : Scope} {post : α → Prop} {work : HostM α}
    (hStep : Step s post work) : Counts work := by
  cases hStep with
  | report n _ => exact .report n
  | create info _ => exact .create info
  | memoryNeeds image _ => exact .memoryNeeds image
  | bindMemory image memory _ => exact .bindMemory image memory
  | nameImage image name _ => exact .nameImage image name
  | destroy o _ => exact .destroy o
  | record buffer command _ => exact .record buffer command
  | shuffled => exact fun _ => rfl

theorem KeepsTo.counts {α : Type} {s : Scope} {post : α → Prop} {work : HostM α}
    (hWork : KeepsTo s post work) : Counts work := hWork.preserves_of_steps Step.counts

/-- What follows is answered as the calls before it tell. -/
theorem Ends.bind_counting {α β ε : Type} {work : HostE ε α} {h : Host}
    {done : α → List Call → Prop} {failed : ε → List Call → Prop} {next : α → HostE ε β}
    {doneNext : β → List Call → Prop} (hWork : Ends work h done failed)
    (hCounts : Counts work.run)
    (hNext : ∀ a log h₁, done a log → Sent h h₁ log → h₁.uncalled = h.uncalled →
      Ends (next a) h₁ (fun b rest => doneNext b (log ++ rest))
        (fun e rest => failed e (log ++ rest))) :
    Ends (work >>= next) h doneNext failed := by
  refine hWork.bind_run fun a log h₁ hRun hDone hSent => hNext a log h₁ hDone hSent ?_
  have hSame := hCounts h
  rwa [hRun] at hSame

end Host

end FrameGraph
