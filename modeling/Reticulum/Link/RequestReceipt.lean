import Reticulum.Core.Bytes
import Reticulum.Core.Run

/-!
# Receipts of requests

A **request** over a link leaves a receipt in `pendingRequests` until it is **concluded**, by a
response or by a failure (`pkg/link/request_receipt.go`).  Every call takes the lock of a receipt,
or the one of the list, for one section at a time.  So a call is a sequence of **tasks**: the
section that concludes a receipt leaves behind the task to take it off the list.

A receipt is concluded once, and its status is final (**`request_concluded_once`**).  In between the
two sections it is still in the list, and a callback that is taken back and set again is invoked
twice (`concluded_still_pending`).
-/

namespace Reticulum

open List

/-! ## A receipt -/

inductive RequestStatus where
  | pending
  | receiving
  | active
  | failed
deriving DecidableEq

def RequestStatus.Concluded : RequestStatus → Prop
  | .pending | .receiving => False
  | .active | .failed => True

instance : DecidablePred RequestStatus.Concluded
  | .pending | .receiving => .isFalse id
  | .active | .failed => .isTrue trivial

structure RequestCallback where
  status : RequestStatus
  callback : ℕ
deriving DecidableEq

/-- A receipt, with a record of its conclusions and of the callbacks that were invoked.  A callback
is a number. -/
structure RequestReceipt where
  requestID : Bytes
  pathHash : Bytes
  /-- zero for no limit -/
  maxResponseSize : ℕ
  status : RequestStatus
  response : Option Bytes
  responseCb : Option ℕ
  failedCb : Option ℕ
  conclusions : List RequestStatus
  invoked : List RequestCallback
deriving DecidableEq

namespace RequestReceipt

def new (requestID pathHash : Bytes) (maxResponseSize : ℕ) : RequestReceipt where
  requestID
  pathHash
  maxResponseSize
  status := .pending
  response := none
  responseCb := none
  failedCb := none
  conclusions := []
  invoked := []

def invoke (status : RequestStatus) (cb : Option ℕ) : List RequestCallback :=
  cb.toList.map fun callback => ⟨status, callback⟩

variable (req : RequestReceipt)

/-- The section of `handleResponse` and `completeRequestWithResourcePayload` that concludes. -/
def conclude (response : Bytes) : RequestReceipt :=
  { req with
    status := .active
    response := some response
    conclusions := req.conclusions ++ [.active]
    invoked := req.invoked ++ invoke .active req.responseCb }

def fail : RequestReceipt :=
  { req with
    status := .failed
    conclusions := req.conclusions ++ [.failed]
    invoked := req.invoked ++ invoke .failed req.failedCb }

def reportProgress : RequestReceipt :=
  if req.status = .pending then { req with status := .receiving } else req

/-- A callback that is set after the conclusion is invoked, if none was set before. -/
def lateFire (status : RequestStatus) (prev cb : Option ℕ) : List RequestCallback :=
  if req.status = status ∧ prev = none then invoke status cb else []

def setResponseCallback (cb : Option ℕ) : RequestReceipt :=
  { req with
    responseCb := cb
    invoked := req.invoked ++ req.lateFire .active req.responseCb cb }

def setFailedCallback (cb : Option ℕ) : RequestReceipt :=
  { req with
    failedCb := cb
    invoked := req.invoked ++ req.lateFire .failed req.failedCb cb }

end RequestReceipt

/-! ## The requests of a link -/

inductive RequestTask where
  | respond (r : ℕ) (response : Bytes)
  | fail (r : ℕ)
  | remove (r : ℕ)
deriving DecidableEq

/-- The receipts of a link in the order of the requests, the places of those that are pending, and
what the calls under way have still to do. -/
structure RequestLink where
  receipts : List RequestReceipt
  pendingRequests : List ℕ
  tasks : List RequestTask
deriving DecidableEq

inductive RequestEvent where
  /-- a request is made -/
  | request (requestID pathHash : Bytes) (maxResponseSize : ℕ)
  /-- a response arrives in a packet -/
  | response (requestID payload : Bytes)
  /-- a resource is complete that belongs to a receipt -/
  | resourceComplete (r : ℕ) (payload : Bytes)
  /-- a part of such a resource arrives -/
  | progress (r : ℕ)
  /-- a request is not sent, or the resource of its response is given up -/
  | failure (r : ℕ)
  /-- the timeout loop looks at a receipt, which may have had no transfer for too long -/
  | timeout (r : ℕ) (abandoned : Bool)
  | linkClosed
  | setResponseCallback (r : ℕ) (cb : Option ℕ)
  | setFailedCallback (r : ℕ) (cb : Option ℕ)
  /-- the task at place `i` is done -/
  | run (i : ℕ)
deriving DecidableEq

namespace RequestLink

variable {i : ℕ}

def maxPendingRequests : ℕ := 8

def errLinkRequestBusy : String :=
  "link: too many in-flight requests (wait for receipts, do not loop Request)"

def errLinkRequestDuplicate : String :=
  "link: a request for this path is already in flight (wait for the receipt)"

def empty : RequestLink := ⟨[], [], []⟩

section

variable (l : RequestLink)

def holds (p : RequestReceipt → Bool) (r : ℕ) : Bool :=
  match l.receipts[r]? with
  | none => false
  | some req => p req

def registerPendingRequest (receipt : RequestReceipt) : Except String RequestLink :=
  if maxPendingRequests ≤ l.pendingRequests.length then .error errLinkRequestBusy
  else if receipt.pathHash ≠ [] ∧
      l.pendingRequests.any (l.holds (·.pathHash = receipt.pathHash)) then
    .error errLinkRequestDuplicate
  else .ok { l with
    receipts := l.receipts ++ [receipt]
    pendingRequests := l.pendingRequests ++ [l.receipts.length] }

/-- The section of a call that concludes the receipt at place `r`, unless it is concluded. -/
def concludeWith (r : ℕ) (f : RequestReceipt → RequestReceipt) : RequestLink :=
  match l.receipts[r]? with
  | none => l
  | some req =>
    if req.status.Concluded then l
    else { l with receipts := l.receipts.set r (f req), tasks := l.tasks ++ [.remove r] }

def removePendingRequest (r : ℕ) : RequestLink :=
  { l with pendingRequests := l.pendingRequests.erase r }

def modify (r : ℕ) (f : RequestReceipt → RequestReceipt) : RequestLink :=
  match l.receipts[r]? with
  | none => l
  | some req => { l with receipts := l.receipts.set r (f req) }

def addTasks (tasks : List RequestTask) : RequestLink :=
  { l with tasks := l.tasks ++ tasks }

/-- The first section of `handleResponse`: a response finds its receipt, and fails it if it is too
large. -/
def handleResponse (requestID payload : Bytes) : RequestLink :=
  match l.pendingRequests.find? (l.holds (·.requestID = requestID)) with
  | none => l
  | some r =>
    if l.holds (fun req => 0 < req.maxResponseSize ∧ req.maxResponseSize < payload.length) r then
      l.addTasks [.fail r]
    else l.addTasks [.respond r payload]

def checkTimeout (r : ℕ) (abandoned : Bool) : RequestLink :=
  match l.receipts[r]? with
  | none => l
  | some req =>
    if req.status = .pending ∨ (req.status = .receiving ∧ abandoned) then l.addTasks [.fail r]
    else l

def runTask : RequestTask → RequestLink
  | .respond r response => l.concludeWith r (·.conclude response)
  | .fail r => l.concludeWith r .fail
  | .remove r => l.removePendingRequest r

def step : RequestEvent → RequestLink
  | .request requestID pathHash maxResponseSize =>
    match l.registerPendingRequest (.new requestID pathHash maxResponseSize) with
    | .ok l => l
    | .error _ => l
  | .response requestID payload => l.handleResponse requestID payload
  | .resourceComplete r payload => l.addTasks [.respond r payload]
  | .progress r => l.modify r .reportProgress
  | .failure r => l.addTasks [.fail r]
  | .timeout r abandoned => l.checkTimeout r abandoned
  | .linkClosed => l.addTasks (l.pendingRequests.map .fail)
  | .setResponseCallback r cb => l.modify r (·.setResponseCallback cb)
  | .setFailedCallback r cb => l.modify r (·.setFailedCallback cb)
  | .run i =>
    match l.tasks[i]? with
    | none => l
    | some task => { l with tasks := l.tasks.eraseIdx i }.runTask task

/-! ## What is claimed of the receipts -/

/-- A receipt is concluded at most once and its status is that of its conclusion; only callbacks for
this status are invoked. -/
structure ConcludedOnce (req : RequestReceipt) : Prop where
  conclusions : req.conclusions = if req.status.Concluded then [req.status] else []
  invoked : ∀ cb ∈ req.invoked, req.status.Concluded ∧ cb.status = req.status

/-- A concluded receipt is in the list only as long as the call that concluded it has yet to take it
off. -/
def TakenOff : Prop :=
  ∀ r req, l.receipts[r]? = some req → req.status.Concluded → r ∈ l.pendingRequests →
    .remove r ∈ l.tasks

def KeepsCallbacks : RequestEvent → Prop
  | .setResponseCallback r none =>
    ∀ req, l.receipts[r]? = some req → req.status = .active → req.responseCb = none
  | .setFailedCallback r none =>
    ∀ req, l.receipts[r]? = some req → req.status = .failed → req.failedCb = none
  | _ => True

end

/-! ## What a step does to a receipt -/

/-- What an event can do to the receipt at place `r`. -/
inductive Change (e : RequestEvent) (r : ℕ) (req : RequestReceipt) : RequestReceipt → Prop where
  | same : Change e r req req
  | conclude (response : Bytes) (h : ¬ req.status.Concluded) :
      Change e r req (req.conclude response)
  | fail (h : ¬ req.status.Concluded) : Change e r req req.fail
  | progress : Change e r req req.reportProgress
  | setResponseCallback (cb : Option ℕ) (h : e = .setResponseCallback r cb) :
      Change e r req (req.setResponseCallback cb)
  | setFailedCallback (cb : Option ℕ) (h : e = .setFailedCallback r cb) :
      Change e r req (req.setFailedCallback cb)

section

variable {l : RequestLink} {e : RequestEvent} {r : ℕ} {req' : RequestReceipt}
  {f : RequestReceipt → RequestReceipt}

lemma getElem?_set_cases {receipts : List RequestReceipt} {new : RequestReceipt}
    (h : (receipts.set i new)[r]? = some req') : receipts[r]? = some req' ∨ r = i ∧ req' = new := by
  rw [getElem?_set] at h
  split at h
  · rename_i hir
    split at h
    · exact .inr ⟨hir.symm, (Option.some.inj h).symm⟩
    · cases h
  · exact .inl h

lemma modify_receipt (h : (l.modify i f).receipts[r]? = some req') :
    l.receipts[r]? = some req' ∨ r = i ∧ ∃ req, l.receipts[r]? = some req ∧ req' = f req := by
  unfold modify at h
  split at h
  · exact .inl h
  · rename_i req hreq
    rcases getElem?_set_cases h with hsame | ⟨rfl, rfl⟩
    · exact .inl hsame
    · exact .inr ⟨rfl, req, hreq, rfl⟩

lemma concludeWith_receipt (h : (l.concludeWith i f).receipts[r]? = some req') :
    l.receipts[r]? = some req' ∨
      ∃ req, l.receipts[r]? = some req ∧ ¬ req.status.Concluded ∧ req' = f req := by
  unfold concludeWith at h
  split at h
  · exact .inl h
  · rename_i req hreq
    split at h
    · exact .inl h
    · rename_i hopen
      rcases getElem?_set_cases h with hsame | ⟨rfl, rfl⟩
      · exact .inl hsame
      · exact .inr ⟨req, hreq, hopen, rfl⟩

/-- **A receipt after a step is new, or one from before that the step may have changed.** -/
lemma step_receipt (h : (l.step e).receipts[r]? = some req') :
    (l.receipts.length ≤ r ∧ ∃ requestID pathHash maxResponseSize,
        req' = .new requestID pathHash maxResponseSize) ∨
      ∃ req, l.receipts[r]? = some req ∧ Change e r req req' := by
  have hsame (h : l.receipts[r]? = some req') :
      (l.receipts.length ≤ r ∧ ∃ requestID pathHash maxResponseSize,
          req' = .new requestID pathHash maxResponseSize) ∨
        ∃ req, l.receipts[r]? = some req ∧ Change e r req req' := .inr ⟨req', h, .same⟩
  cases e with
  | request requestID pathHash maxResponseSize =>
    simp only [step, registerPendingRequest] at h
    split at h
    · rename_i l' hl'
      split at hl'
      · cases hl'
      split at hl'
      · cases hl'
      obtain rfl := Except.ok.inj hl'
      rw [getElem?_append] at h
      split at h
      · exact hsame h
      · rename_i hr
        exact .inl ⟨not_lt.1 hr, _, _, _, mem_singleton.1 (mem_of_getElem? h)⟩
    · exact hsame h
  | response requestID payload =>
    simp only [step, handleResponse] at h
    split at h
    · exact hsame h
    · split at h <;> exact hsame h
  | resourceComplete i payload | failure i | linkClosed => exact hsame h
  | progress i =>
    rcases modify_receipt h with h | ⟨rfl, req, hreq, rfl⟩
    · exact hsame h
    · exact .inr ⟨req, hreq, .progress⟩
  | timeout i abandoned =>
    simp only [step, checkTimeout] at h
    split at h
    · exact hsame h
    · split at h <;> exact hsame h
  | setResponseCallback i cb =>
    rcases modify_receipt h with h | ⟨rfl, req, hreq, rfl⟩
    · exact hsame h
    · exact .inr ⟨req, hreq, .setResponseCallback cb rfl⟩
  | setFailedCallback i cb =>
    rcases modify_receipt h with h | ⟨rfl, req, hreq, rfl⟩
    · exact hsame h
    · exact .inr ⟨req, hreq, .setFailedCallback cb rfl⟩
  | run i =>
    simp only [step] at h
    split at h
    · exact hsame h
    · rename_i task htask
      cases task with
      | respond j response =>
        rcases concludeWith_receipt h with h | ⟨req, hreq, hopen, rfl⟩
        · exact hsame h
        · exact .inr ⟨req, hreq, .conclude response hopen⟩
      | fail j =>
        rcases concludeWith_receipt h with h | ⟨req, hreq, hopen, rfl⟩
        · exact hsame h
        · exact .inr ⟨req, hreq, .fail hopen⟩
      | remove j => exact hsame h

lemma length_receipts_modify (i : ℕ) (f : RequestReceipt → RequestReceipt) :
    (l.modify i f).receipts.length = l.receipts.length := by
  unfold modify
  split
  · rfl
  · exact length_set

lemma length_receipts_concludeWith (i : ℕ) (f : RequestReceipt → RequestReceipt) :
    (l.concludeWith i f).receipts.length = l.receipts.length := by
  unfold concludeWith
  repeat' split
  · rfl
  · rfl
  · exact length_set

lemma length_receipts_step (l : RequestLink) (e : RequestEvent) :
    l.receipts.length ≤ (l.step e).receipts.length := by
  cases e with
  | request requestID pathHash maxResponseSize =>
    simp only [step, registerPendingRequest]
    split
    · rename_i l' hl'
      split at hl'
      · cases hl'
      split at hl'
      · cases hl'
      obtain rfl := Except.ok.inj hl'
      simp
    · exact le_refl _
  | response requestID payload =>
    simp only [step, handleResponse]
    repeat' split
    all_goals exact le_refl _
  | timeout i abandoned =>
    simp only [step, checkTimeout]
    repeat' split
    all_goals exact le_refl _
  | resourceComplete i payload | failure i | linkClosed => exact le_refl _
  | progress i | setResponseCallback i cb
  | setFailedCallback i cb => exact (length_receipts_modify i _).ge
  | run i =>
    simp only [step]
    split
    · exact le_refl _
    · rename_i task htask
      cases task with
      | respond j response | fail j =>
        simp only [runTask, length_receipts_concludeWith]
        exact le_refl _
      | remove j => exact le_refl _

lemma receipt_step {req : RequestReceipt} (h : l.receipts[r]? = some req) (e : RequestEvent) :
    ∃ req', (l.step e).receipts[r]? = some req' ∧ Change e r req req' := by
  have hr : r < l.receipts.length := (List.getElem?_eq_some_iff.1 h).1
  have hr' := lt_of_lt_of_le hr (length_receipts_step l e)
  have hreq' : (l.step e).receipts[r]? = some (l.step e).receipts[r] := getElem?_eq_getElem hr'
  rcases step_receipt hreq' with ⟨hle, -⟩ | ⟨req₀, hreq₀, hchange⟩
  · exact absurd hr (not_lt.2 hle)
  · obtain rfl := Option.some.inj (h.symm.trans hreq₀)
    exact ⟨_, hreq', hchange⟩

end

variable {req req' : RequestReceipt} {e : RequestEvent} {r : ℕ} {cb : Option ℕ} {l : RequestLink}

lemma Change.status_eq (h : Change e r req req') (hconcluded : req.status.Concluded) :
    req'.status = req.status := by
  cases h with
  | same => rfl
  | conclude response hopen | fail hopen => exact absurd hconcluded hopen
  | progress =>
    unfold RequestReceipt.reportProgress
    split
    · rename_i hpending
      rw [hpending] at hconcluded
      exact hconcluded.elim
    · rfl
  | setResponseCallback cb he => rfl
  | setFailedCallback cb he => rfl

/-- **A final status is final**: it does not change in any run. -/
lemma status_final (hconcluded : req.status.Concluded) (events : List RequestEvent) :
    ∀ l : RequestLink, l.receipts[r]? = some req →
      ∃ req', (Run.exec step l events).receipts[r]? = some req' ∧ req'.status = req.status := by
  induction events generalizing req with
  | nil =>
    intro l h
    exact ⟨req, h, rfl⟩
  | cons e events ih =>
    intro l h
    obtain ⟨req₁, hreq₁, hchange⟩ := receipt_step h e
    have hstatus := hchange.status_eq hconcluded
    obtain ⟨req₂, hreq₂, hstatus₂⟩ := ih (hstatus ▸ hconcluded) (l.step e) hreq₁
    exact ⟨req₂, hreq₂, hstatus₂.trans hstatus⟩

/-! ## Conclusions -/

lemma concludedOnce_new (requestID pathHash : Bytes) (maxResponseSize : ℕ) :
    ConcludedOnce (.new requestID pathHash maxResponseSize) :=
  ⟨rfl, by nofun⟩

lemma ConcludedOnce.invoked_eq_nil (h : ConcludedOnce req) (hopen : ¬ req.status.Concluded) :
    req.invoked = [] := by
  refine eq_nil_iff_forall_not_mem.2 fun cb hcb => ?_
  exact hopen (h.invoked cb hcb).1

lemma ConcludedOnce.settle {status : RequestStatus} (h : ConcludedOnce req)
    (hopen : ¬ req.status.Concluded) (hstatus : req'.status = status) (hfinal : status.Concluded)
    (hconclusions : req'.conclusions = req.conclusions ++ [status])
    (hinvoked : req'.invoked = req.invoked ++ RequestReceipt.invoke status cb) :
    ConcludedOnce req' := by
  refine ⟨?_, ?_⟩
  · rw [hconclusions, h.conclusions, if_neg hopen, hstatus, if_pos hfinal]
    rfl
  · intro c hc
    rw [hinvoked, h.invoked_eq_nil hopen] at hc
    obtain ⟨n, -, rfl⟩ := mem_map.1 hc
    rw [hstatus]
    exact ⟨hfinal, rfl⟩

lemma ConcludedOnce.setCallback (status : RequestStatus) {prev : Option ℕ}
    (h : ConcludedOnce req) (hfinal : status.Concluded) (hstatus : req'.status = req.status)
    (hconclusions : req'.conclusions = req.conclusions)
    (hinvoked : req'.invoked = req.invoked ++ req.lateFire status prev cb) :
    ConcludedOnce req' := by
  refine ⟨?_, ?_⟩
  · rw [hconclusions, hstatus]
    exact h.conclusions
  · intro c hc
    rw [hstatus]
    rw [hinvoked] at hc
    rcases mem_append.1 hc with hc | hc
    · exact h.invoked c hc
    · unfold RequestReceipt.lateFire at hc
      split at hc
      · rename_i hlate
        obtain ⟨n, -, rfl⟩ := mem_map.1 hc
        rw [hlate.1]
        exact ⟨hfinal, rfl⟩
      · cases hc

lemma ConcludedOnce.change (h : ConcludedOnce req) (hchange : Change e r req req') :
    ConcludedOnce req' := by
  cases hchange with
  | same => exact h
  | conclude response hopen | fail hopen => exact h.settle hopen rfl trivial rfl rfl
  | progress =>
    unfold RequestReceipt.reportProgress
    split
    · rename_i hpending
      have hopen : ¬ req.status.Concluded := by
        rw [hpending]
        exact id
      refine ⟨?_, ?_⟩
      · have hconclusions := h.conclusions
        rw [if_neg hopen] at hconclusions
        exact hconclusions
      · intro cb hcb
        exact absurd (h.invoked cb hcb).1 hopen
    · exact h
  | setResponseCallback cb he => exact h.setCallback .active trivial rfl rfl rfl
  | setFailedCallback cb he => exact h.setCallback .failed trivial rfl rfl rfl

/-! ## Callbacks -/

def callback (req : RequestReceipt) : Option ℕ :=
  match req.status with
  | .active => req.responseCb
  | .failed => req.failedCb
  | .pending | .receiving => none

/-- At most one callback is invoked; and none while the one for the status is not set. -/
structure InvokedOnce (req : RequestReceipt) : Prop where
  length_le : req.invoked.length ≤ 1
  of_none : callback req = none → req.invoked = []

lemma InvokedOnce.of_invoke (status : RequestStatus)
    (h : req.invoked = RequestReceipt.invoke status (callback req)) : InvokedOnce req := by
  refine ⟨?_, ?_⟩
  · rw [h]
    cases callback req <;> simp [RequestReceipt.invoke]
  · intro hnone
    rw [h, hnone]
    rfl

lemma InvokedOnce.setCallback (cb : Option ℕ) (h : InvokedOnce req)
    (hkeeps : cb = none → callback req = none) (hcb : callback req' = cb)
    (hinvoked : req'.invoked = req.invoked ++ req.lateFire req.status (callback req) cb) :
    InvokedOnce req' := by
  by_cases hnone : callback req = none
  · refine .of_invoke req.status ?_
    rw [hinvoked, h.of_none hnone, hcb]
    simp [RequestReceipt.lateFire, hnone]
  · have hsame : req'.invoked = req.invoked := by
      rw [hinvoked]
      simp [RequestReceipt.lateFire, hnone]
    refine ⟨hsame ▸ h.length_le, fun hnil => ?_⟩
    exact absurd (hkeeps (hcb.symm.trans hnil)) hnone

lemma InvokedOnce.setOther (status : RequestStatus) {prev : Option ℕ} (h : InvokedOnce req)
    (hcb : callback req' = callback req) (hstatus : req.status ≠ status)
    (hinvoked : req'.invoked = req.invoked ++ req.lateFire status prev cb) : InvokedOnce req' := by
  have hsame : req'.invoked = req.invoked := by
    rw [hinvoked]
    simp [RequestReceipt.lateFire, hstatus]
  exact ⟨hsame ▸ h.length_le, fun hnil => hsame.trans (h.of_none (hcb.symm.trans hnil))⟩

lemma InvokedOnce.change (hreq : l.receipts[r]? = some req)
    (he : l.KeepsCallbacks e) (hconcluded : ConcludedOnce req) (h : InvokedOnce req)
    (hchange : Change e r req req') : InvokedOnce req' := by
  cases hchange with
  | same => exact h
  | conclude response hopen =>
    refine .of_invoke .active ?_
    simp only [RequestReceipt.conclude, hconcluded.invoked_eq_nil hopen]
    rfl
  | fail hopen =>
    refine .of_invoke .failed ?_
    simp only [RequestReceipt.fail, hconcluded.invoked_eq_nil hopen]
    rfl
  | progress =>
    unfold RequestReceipt.reportProgress
    split
    · rename_i hpending
      have hnil : req.invoked = [] := h.of_none (by simp [callback, hpending])
      exact ⟨h.length_le, fun _ => hnil⟩
    · exact h
  | setResponseCallback cb heq =>
    subst heq
    by_cases hactive : req.status = .active
    · have hcallback : callback req = req.responseCb := by simp only [callback, hactive]
      refine h.setCallback cb ?_ ?_ ?_
      · intro hnone
        subst hnone
        exact hcallback.trans (he req hreq hactive)
      · simp [callback, RequestReceipt.setResponseCallback, hactive]
      · rw [hcallback, hactive]
        rfl
    · refine h.setOther .active ?_ hactive rfl
      unfold callback RequestReceipt.setResponseCallback
      split <;> simp_all
  | setFailedCallback cb heq =>
    subst heq
    by_cases hfailed : req.status = .failed
    · have hcallback : callback req = req.failedCb := by simp only [callback, hfailed]
      refine h.setCallback cb ?_ ?_ ?_
      · intro hnone
        subst hnone
        exact hcallback.trans (he req hreq hfailed)
      · simp [callback, RequestReceipt.setFailedCallback, hfailed]
      · rw [hcallback, hfailed]
        rfl
    · refine h.setOther .failed ?_ hfailed rfl
      unfold callback RequestReceipt.setFailedCallback
      split <;> simp_all

/-! ## The list of pending requests -/

/-- The list has the places of receipts, each once, and concluded ones only until they are taken
off. -/
structure Listed (l : RequestLink) : Prop where
  nodup : l.pendingRequests.Nodup
  lt_length : ∀ r ∈ l.pendingRequests, r < l.receipts.length
  takenOff : l.TakenOff

section

variable {l : RequestLink}

lemma Listed.addTasks (h : l.Listed) (tasks : List RequestTask) : (l.addTasks tasks).Listed where
  nodup := h.nodup
  lt_length := h.lt_length
  takenOff r req hreq hconcluded hr := mem_append_left _ (h.takenOff r req hreq hconcluded hr)

lemma mem_eraseIdx_of_ne {tasks : List RequestTask} {x task : RequestTask}
    (htask : tasks[i]? = some task) (hx : x ∈ tasks) (hne : x ≠ task) : x ∈ tasks.eraseIdx i := by
  obtain ⟨j, hj⟩ := mem_iff_getElem?.1 hx
  refine mem_eraseIdx_iff_getElem?.2 ⟨j, ?_, hj⟩
  rintro rfl
  exact hne (Option.some.inj (hj.symm.trans htask))

lemma Listed.eraseTask (h : l.Listed) {task : RequestTask} (htask : l.tasks[i]? = some task)
    (hne : ∀ r, .remove r ≠ task) :
    ({ l with tasks := l.tasks.eraseIdx i } : RequestLink).Listed := { h with
  takenOff r req hreq hconcluded hr :=
    mem_eraseIdx_of_ne htask (h.takenOff r req hreq hconcluded hr) (hne r) }

lemma Listed.modify (h : l.Listed) (r : ℕ) {f : RequestReceipt → RequestReceipt}
    (hf : ∀ req, (f req).status.Concluded → req.status.Concluded) : (l.modify r f).Listed := by
  have hlists : (l.modify r f).pendingRequests = l.pendingRequests ∧
      (l.modify r f).tasks = l.tasks := by
    unfold RequestLink.modify
    split <;> exact ⟨rfl, rfl⟩
  refine ⟨hlists.1 ▸ h.nodup, ?_, ?_⟩
  · rw [hlists.1, length_receipts_modify]
    exact h.lt_length
  · intro i req hreq hconcluded hi
    rw [hlists.1] at hi
    rw [hlists.2]
    rcases modify_receipt hreq with hsame | ⟨rfl, req', hreq', rfl⟩
    · exact h.takenOff i req hsame hconcluded hi
    · exact h.takenOff i req' hreq' (hf req' hconcluded) hi

lemma Listed.concludeWith (h : l.Listed) (r : ℕ) (f : RequestReceipt → RequestReceipt) :
    (l.concludeWith r f).Listed := by
  cases hreq : l.receipts[r]? with
  | none => simpa [RequestLink.concludeWith, hreq] using h
  | some req =>
    by_cases hconcluded : req.status.Concluded
    · simpa [RequestLink.concludeWith, hreq, hconcluded] using h
    simp only [RequestLink.concludeWith, hreq, hconcluded, if_false]
    refine ⟨h.nodup, ?_, ?_⟩
    · intro i hi
      rw [length_set]
      exact h.lt_length i hi
    · intro i req' hreq' hconcluded' hi
      rcases getElem?_set_cases hreq' with hsame | ⟨rfl, -⟩
      · exact mem_append_left _ (h.takenOff i req' hsame hconcluded' hi)
      · exact mem_append_right _ (mem_singleton.2 rfl)

lemma Listed.remove (h : l.Listed) (htask : l.tasks[i]? = some (.remove r)) :
    (({ l with tasks := l.tasks.eraseIdx i } : RequestLink).removePendingRequest r).Listed where
  nodup := h.nodup.erase r
  lt_length j hj := h.lt_length j (mem_of_mem_erase hj)
  takenOff j req hreq hconcluded hj := by
    obtain ⟨hne, hmem⟩ := h.nodup.mem_erase_iff.1 hj
    refine mem_eraseIdx_of_ne htask (h.takenOff j req hreq hconcluded hmem) ?_
    intro heq
    cases heq
    exact hne rfl

lemma Listed.register (h : l.Listed) {receipt : RequestReceipt} {l' : RequestLink}
    (hopen : ¬ receipt.status.Concluded) (hl' : l.registerPendingRequest receipt = .ok l') :
    l'.Listed := by
  unfold registerPendingRequest at hl'
  split at hl'
  · cases hl'
  split at hl'
  · cases hl'
  obtain rfl := Except.ok.inj hl'
  refine ⟨?_, ?_, ?_⟩
  · refine nodup_append.2 ⟨h.nodup, nodup_singleton _, ?_⟩
    intro i hi j hj
    obtain rfl := mem_singleton.1 hj
    exact ne_of_lt (h.lt_length i hi)
  · intro i hi
    rw [length_append]
    rcases mem_append.1 hi with hi | hi
    · exact Nat.lt_succ_of_lt (h.lt_length i hi)
    · obtain rfl := mem_singleton.1 hi
      exact Nat.lt_succ_self _
  · intro i req hreq hconcluded hi
    rw [getElem?_append] at hreq
    split at hreq
    · rename_i hlt
      rcases mem_append.1 hi with hi | hi
      · exact h.takenOff i req hreq hconcluded hi
      · exact absurd (mem_singleton.1 hi) (ne_of_lt hlt)
    · obtain rfl := mem_singleton.1 (mem_of_getElem? hreq)
      exact absurd hconcluded hopen

lemma Listed.step (h : l.Listed) (e : RequestEvent) : (l.step e).Listed := by
  cases e with
  | request requestID pathHash maxResponseSize =>
    simp only [RequestLink.step]
    split
    · rename_i l' hl'
      exact h.register id hl'
    · exact h
  | response requestID payload =>
    simp only [RequestLink.step, handleResponse]
    split
    · exact h
    · split <;> exact h.addTasks _
  | resourceComplete r payload | failure r | linkClosed => exact h.addTasks _
  | progress r =>
    refine h.modify r fun req => ?_
    unfold RequestReceipt.reportProgress
    split
    · exact False.elim
    · exact id
  | timeout r abandoned =>
    simp only [RequestLink.step, checkTimeout]
    split
    · exact h
    · split
      · exact h.addTasks _
      · exact h
  | setResponseCallback r cb | setFailedCallback r cb => exact h.modify r fun req => id
  | run i =>
    cases htask : l.tasks[i]? with
    | none => simpa [RequestLink.step, htask] using h
    | some task =>
      simp only [RequestLink.step, htask]
      cases task with
      | respond r response | fail r => exact (h.eraseTask htask (by nofun)).concludeWith r _
      | remove r => exact h.remove htask

end

/-! ## Every run -/

def AllConcludedOnce (l : RequestLink) : Prop :=
  ∀ (r : ℕ) (req : RequestReceipt), l.receipts[r]? = some req → ConcludedOnce req

/-- At most one callback of every receipt is invoked, once. -/
def AllInvokedOnce (l : RequestLink) : Prop :=
  ∀ (r : ℕ) (req : RequestReceipt), l.receipts[r]? = some req → req.invoked.length ≤ 1

/-- The status of a concluded receipt is the same in every state that can follow. -/
def FinalStatus (l : RequestLink) : Prop :=
  ∀ (r : ℕ) (req : RequestReceipt), l.receipts[r]? = some req → req.status.Concluded →
    ∀ events, ∃ req', (Run.exec step l events).receipts[r]? = some req' ∧ req'.status = req.status

lemma finalStatus (l : RequestLink) : l.FinalStatus := by
  intro r req hreq hconcluded events
  exact status_final hconcluded events l hreq

lemma AllConcludedOnce.step (h : l.AllConcludedOnce) (e : RequestEvent) :
    (l.step e).AllConcludedOnce := by
  intro r req' hreq'
  rcases step_receipt hreq' with ⟨-, requestID, pathHash, size, rfl⟩ | ⟨req, hreq, hchange⟩
  · exact concludedOnce_new _ _ _
  · exact (h r req hreq).change hchange

/-- What holds of the receipts as long as no callback is taken back. -/
structure Kept (l : RequestLink) : Prop where
  concluded : l.AllConcludedOnce
  invoked : ∀ (r : ℕ) (req : RequestReceipt), l.receipts[r]? = some req → InvokedOnce req

lemma Kept.step (h : l.Kept) (he : l.KeepsCallbacks e) : (l.step e).Kept := by
  refine ⟨h.concluded.step e, ?_⟩
  intro r req' hreq'
  rcases step_receipt hreq' with ⟨-, requestID, pathHash, size, rfl⟩ | ⟨req, hreq, hchange⟩
  · exact ⟨Nat.zero_le _, fun _ => rfl⟩
  · exact (h.invoked r req hreq).change hreq he (h.concluded r req hreq) hchange

/-- **Requests are concluded once.**  In every state of every run a receipt has been concluded at
most once, has the status of its conclusion, which no later event changes, and has invoked callbacks
for this status only; and it is taken off the list by the call that concluded it.  If no callback of
a concluded receipt is taken back, at most one callback is invoked, and it is invoked once. -/
theorem request_concluded_once (events : List RequestEvent) :
    Run.Always step (fun l => l.AllConcludedOnce ∧ l.FinalStatus ∧ l.TakenOff) empty events ∧
      (Run.Along step KeepsCallbacks empty events →
        Run.Always step AllInvokedOnce empty events) := by
  have hnone (r : ℕ) req (h : empty.receipts[r]? = some req) : False := by
    cases h
  constructor
  · have hstart : empty.AllConcludedOnce ∧ empty.Listed :=
      ⟨fun r req h => (hnone r req h).elim, nodup_nil, by nofun,
        fun r req h => (hnone r req h).elim⟩
    have hrun : Run.Always step (fun l => l.AllConcludedOnce ∧ l.Listed) empty events := by
      refine Run.always_of_along ?_ hstart
        (Run.along_of_forall fun _ _ => trivial)
      intro l e h _
      exact ⟨h.1.step e, h.2.step e⟩
    exact hrun.mono fun l h => ⟨h.1, finalStatus l, h.2.takenOff⟩
  · intro hkeeps
    have hstart : empty.Kept :=
      ⟨fun r req h => (hnone r req h).elim, fun r req h => (hnone r req h).elim⟩
    have hrun : Run.Always step Kept empty events := by
      refine Run.always_of_along ?_ hstart hkeeps
      intro l e h he
      exact h.step he
    exact hrun.mono fun l h r req hreq => (h.invoked r req hreq).length_le

def oneRequest : RequestEvent := .request [1] [7] 0

def respondedRun : List RequestEvent :=
  [oneRequest, .response [1] [42], .run 0, .setResponseCallback 0 (some 5), .run 0]

/-- The run concludes the request once, takes it off the list and invokes the callback once. -/
theorem respondedRun_concluded :
    Run.Always step (fun l => l.AllConcludedOnce ∧ l.FinalStatus ∧ l.TakenOff) empty
        respondedRun ∧
      Run.Always step AllInvokedOnce empty respondedRun ∧
      (Run.exec step empty respondedRun).pendingRequests = [] ∧
      (Run.exec step empty respondedRun).receipts.map (·.invoked) = [[⟨.active, 5⟩]] := by
  obtain ⟨honce, hkept⟩ := request_concluded_once respondedRun
  refine ⟨honce, hkept ⟨trivial, trivial, trivial, trivial, trivial, trivial⟩, ?_, ?_⟩
  · decide
  · decide

def justConcluded : RequestLink := Run.exec step empty [oneRequest, .response [1] [42], .run 0]

def resetCallback : RequestLink :=
  Run.exec step empty
    (respondedRun ++ [.setResponseCallback 0 none, .setResponseCallback 0 (some 6)])

/-- **A concluded receipt is still in the list until the call that concluded it has taken the other
lock**; and a callback that is taken back and set again is invoked twice. -/
theorem concluded_still_pending :
    justConcluded.receipts.map (·.status) = [.active] ∧ 0 ∈ justConcluded.pendingRequests ∧
      resetCallback.receipts.map (·.invoked) = [[⟨.active, 5⟩, ⟨.active, 6⟩]] := by
  decide

end RequestLink

end Reticulum
