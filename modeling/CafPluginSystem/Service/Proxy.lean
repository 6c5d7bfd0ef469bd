import CafPluginSystem.Library.Machine
import CafPluginSystem.EntityStore.Contract

/-!
# The service proxy

`spawn_service_proxy` puts a proxy in front of every registered service.  Clients only hold the
proxy; it forwards their messages to the implementation that is current, checks their senders
against an allow list once it is restricted, and is paused during a hot reload: a paused proxy
keeps what arrives in a buffer, which `resume` sends on to the new implementation.

The runtime's `delegate` and `response_promise::delegate` are taken as the guide describes them:
each call puts the message, synchronously, into the mailbox of its target.  A handler that
returns an error answers a request with it; the error of a plain send goes nowhere.

* `step_sound` — what one message makes the proxy do, and in which state it does it.
* `proxy_delivery` — **delivery**: over any messages, every call is forwarded or blocked exactly
  once, in arrival order, or stands in the buffer.
* `flush_agrees` — when the flush decides a buffered call as a direct arrival would be decided.
-/

namespace Caf.Service

open List

/-- The address of an actor: the node it lives on and its number there. -/
structure Address where
  node : ℕ
  id : ℕ
deriving DecidableEq, Repr

/-- A client message as the proxy sees it: its content, its sender (`none` for an anonymous send)
and whether a response is awaited.  `Buffered` of the source keeps the same three things. -/
structure Call (μ : Type) where
  msg : μ
  sender : Option Address
  isRequest : Bool
deriving DecidableEq, Repr

structure ProxyState (μ : Type) where
  /-- the implementation; none once it is down and the proxy has retired -/
  current : Option Address
  version : ℕ := 1
  restricted : Bool := false
  allowed : List (Option Address) := []
  allowCrossNode : Bool := false
  paused : Bool := false
  buffered : List (Call μ) := []
deriving DecidableEq, Repr

/-- The messages a proxy handles. -/
inductive ProxyMsg (μ : Type) where
  | client (call : Call μ)
  | down (source : Address)
  | setAcl (allowed : List (Option Address))
  | quiesce
  | resume (newTarget : Address)
deriving DecidableEq, Repr

/-- What a proxy does to the outside while it handles a message. -/
inductive Effect (μ : Type) where
  | forward (target : Address) (call : Call μ)
  | block (call : Call μ)
  | errorReply (call : Call μ) (reason : Bytes)
  | ack
  | monitor (target : Address)
  | quit
deriving DecidableEq, Repr

variable {μ : Type}

/-- The reason a call without trusted sender is refused with. -/
def notTrusted : Bytes := str "ACL: sender not trusted"

/-- An error as the result of a handler reaches the caller of a request only. -/
def Call.refuse (call : Call μ) (reason : Bytes) : List (Effect μ) :=
  if call.isRequest then [.errorReply call reason] else []

/-- A sender that lives on another node. -/
def remote (node : ℕ) : Option Address → Bool
  | none => false
  | some a => a.node != node

namespace ProxyState

/-- The check of a message that arrives at an unpaused proxy. -/
def trusted (node : ℕ) (st : ProxyState μ) (sender : Option Address) : Bool :=
  st.allowed.contains sender || (st.allowCrossNode && remote node sender)

/-- The check of a buffered message when it is flushed. -/
def listed (st : ProxyState μ) (sender : Option Address) : Bool := st.allowed.contains sender

/-- The default handler: every message that is not one of the proxy's own. -/
def onClient (node : ℕ) (st : ProxyState μ) (call : Call μ) : ProxyState μ × List (Effect μ) :=
  match st.current with
  | none => (st, call.refuse (str "invalid_request"))
  | some target =>
    if st.paused then ({ st with buffered := st.buffered ++ [call] }, [])
    else if st.restricted && !st.trusted node call.sender then
      (st, .block call :: call.refuse notTrusted)
    else (st, [.forward target call])

def onDown (st : ProxyState μ) (source : Address) : ProxyState μ × List (Effect μ) :=
  if st.current = some source then ({ st with current := none }, [.quit]) else (st, [])

def onSetAcl (st : ProxyState μ) (allowed : List (Option Address)) :
    ProxyState μ × List (Effect μ) :=
  ({ st with allowed, restricted := true }, [])

def onQuiesce (st : ProxyState μ) : ProxyState μ × List (Effect μ) :=
  ({ st with paused := true }, [.ack])

/-- One round of the flush loop of `resume`. -/
def flushOne (st : ProxyState μ) (target : Address) (call : Call μ) : List (Effect μ) :=
  if st.restricted && !st.listed call.sender then .block call :: call.refuse notTrusted
  else [.forward target call]

def onResume (st : ProxyState μ) (newTarget : Address) : ProxyState μ × List (Effect μ) :=
  ({ st with current := some newTarget, version := st.version + 1, paused := false, buffered := [] },
    .monitor newTarget :: st.buffered.flatMap (st.flushOne newTarget))

def handle (node : ℕ) (st : ProxyState μ) : ProxyMsg μ → ProxyState μ × List (Effect μ)
  | .client call => st.onClient node call
  | .down source => st.onDown source
  | .setAcl allowed => st.onSetAcl allowed
  | .quiesce => st.onQuiesce
  | .resume newTarget => st.onResume newTarget

end ProxyState

/-- A proxy together with what it has done so far. -/
structure Proxy (μ : Type) where
  state : ProxyState μ
  log : List (Effect μ)
deriving DecidableEq, Repr

def spawnServiceProxy (initialTarget : Address) (allowCrossNode : Bool) : Proxy μ where
  state := { current := some initialTarget, allowCrossNode }
  log := [.monitor initialTarget]

/-- A proxy that has retired handles nothing any more. -/
def step (node : ℕ) (p : Proxy μ) (m : ProxyMsg μ) : Option (Proxy μ) :=
  if p.state.current.isNone then none
  else some { state := (p.state.handle node m).1, log := p.log ++ (p.state.handle node m).2 }

/-! ## Reading the history -/

namespace ProxyMsg

/-- The client call a message carries. -/
def call : ProxyMsg μ → Option (Call μ)
  | .client c => some c
  | _ => none

end ProxyMsg

namespace Effect

/-- The call an effect settles, by forwarding or by blocking it. -/
def settles : Effect μ → Option (Call μ)
  | .forward _ c => some c
  | .block c => some c
  | _ => none

def blocks : Effect μ → Option (Call μ)
  | .block c => some c
  | _ => none

def answers : Effect μ → Option (Call μ × Bytes)
  | .errorReply c reason => some (c, reason)
  | _ => none

end Effect

/-- The calls forwarded or blocked so far, in this order. -/
def Proxy.settled (p : Proxy μ) : List (Call μ) := p.log.filterMap Effect.settles

def Proxy.blocked (p : Proxy μ) : List (Call μ) := p.log.filterMap Effect.blocks

/-- The error replies sent so far, each with its reason. -/
def Proxy.answered (p : Proxy μ) : List (Call μ × Bytes) := p.log.filterMap Effect.answers

/-- The check a call goes through while the proxy in state `st` handles `m`: the default handler
checks what arrives, the flush loop of `resume` what was buffered. -/
def passes (node : ℕ) (st : ProxyState μ) (m : ProxyMsg μ) (call : Call μ) : Prop :=
  st.restricted = true →
    (match m with
      | .resume _ => st.listed call.sender
      | _ => st.trusted node call.sender) = true

/-! ## What one message does -/

@[simp] lemma refuse_settles (call : Call μ) (reason : Bytes) :
    (call.refuse reason).filterMap Effect.settles = [] := by
  unfold Call.refuse
  split <;> rfl

@[simp] lemma refuse_blocks (call : Call μ) (reason : Bytes) :
    (call.refuse reason).filterMap Effect.blocks = [] := by
  unfold Call.refuse
  split <;> rfl

@[simp] lemma refuse_answers (call : Call μ) (reason : Bytes) :
    (call.refuse reason).filterMap Effect.answers
      = ([call].filter Call.isRequest).map fun c => (c, reason) := by
  unfold Call.refuse
  cases h : call.isRequest <;> simp [Effect.answers, h]

lemma not_forward_mem_refuse {call c : Call μ} {reason t} :
    Effect.forward t c ∉ call.refuse reason := by
  unfold Call.refuse
  split <;> simp

lemma not_block_mem_refuse {call c : Call μ} {reason} :
    Effect.block c ∉ call.refuse reason := by
  unfold Call.refuse
  split <;> simp

namespace ProxyState

variable {st : ProxyState μ} {node : ℕ} {call : Call μ} {target : Address}

section

variable (hc : st.current = some target)
include hc

lemma onClient_paused (hp : st.paused = true) :
    st.onClient node call = ({ st with buffered := st.buffered ++ [call] }, []) := by
  simp [onClient, hc, hp]

lemma onClient_blocked (hp : st.paused = false)
    (hr : st.restricted = true) (ht : st.trusted node call.sender = false) :
    st.onClient node call = (st, .block call :: call.refuse notTrusted) := by
  simp [onClient, hc, hp, hr, ht]

lemma onClient_forward (hp : st.paused = false)
    (ht : st.restricted = true → st.trusted node call.sender = true) :
    st.onClient node call = (st, [.forward target call]) := by
  cases hr : st.restricted with
  | false => simp [onClient, hc, hp, hr]
  | true => simp [onClient, hc, hp, ht hr]

end

lemma flushOne_blocked (hr : st.restricted = true) (ht : st.listed call.sender = false) :
    st.flushOne target call = .block call :: call.refuse notTrusted := by
  simp [flushOne, hr, ht]

lemma flushOne_forward (ht : st.restricted = true → st.listed call.sender = true) :
    st.flushOne target call = [.forward target call] := by
  cases hr : st.restricted with
  | false => simp [flushOne, hr]
  | true => simp [flushOne, ht hr]

/-- A buffered call is either forwarded or blocked by the flush. -/
lemma flushOne_cases (st : ProxyState μ) (target : Address) (call : Call μ) :
    (st.restricted = true ∧ st.listed call.sender = false ∧
        st.flushOne target call = .block call :: call.refuse notTrusted) ∨
      ((st.restricted = true → st.listed call.sender = true) ∧
        st.flushOne target call = [.forward target call]) := by
  by_cases hr : st.restricted = true ∧ st.listed call.sender = false
  · exact .inl ⟨hr.1, hr.2, flushOne_blocked hr.1 hr.2⟩
  · have ht : st.restricted = true → st.listed call.sender = true := by
      intro h
      by_contra hl
      exact hr ⟨h, by simpa using hl⟩
    exact .inr ⟨ht, flushOne_forward ht⟩

lemma flushOne_settles (st : ProxyState μ) (target : Address) (call : Call μ) :
    (st.flushOne target call).filterMap Effect.settles = [call] := by
  obtain ⟨-, -, h⟩ | ⟨-, h⟩ := st.flushOne_cases target call
  · simp [h, Effect.settles]
  · simp [h, Effect.settles]

lemma flushOne_answers (st : ProxyState μ) (target : Address) (call : Call μ) :
    (st.flushOne target call).filterMap Effect.answers
      = (((st.flushOne target call).filterMap Effect.blocks).filter Call.isRequest).map
          fun c => (c, notTrusted) := by
  obtain ⟨-, -, h⟩ | ⟨-, h⟩ := st.flushOne_cases target call
  · simp [h, filterMap_cons, Effect.answers, Effect.blocks]
  · simp [h, filterMap_cons, Effect.answers, Effect.blocks]

/-- The flush settles the whole buffer, front to back. -/
lemma flush_settles (st : ProxyState μ) (target : Address) (calls : List (Call μ)) :
    (calls.flatMap (st.flushOne target)).filterMap Effect.settles = calls := by
  induction calls with
  | nil => rfl
  | cons c cs ih =>
    rw [flatMap_cons, filterMap_append, flushOne_settles, ih]
    rfl

lemma flush_answers (st : ProxyState μ) (target : Address) (calls : List (Call μ)) :
    (calls.flatMap (st.flushOne target)).filterMap Effect.answers
      = (((calls.flatMap (st.flushOne target)).filterMap Effect.blocks).filter
          Call.isRequest).map fun c => (c, notTrusted) := by
  induction calls with
  | nil => rfl
  | cons c cs ih =>
    simp [filter_append, flushOne_answers, ih]

lemma forward_mem_flush {calls : List (Call μ)} {t c} :
    Effect.forward t c ∈ calls.flatMap (st.flushOne target) ↔
      c ∈ calls ∧ t = target ∧ (st.restricted = true → st.listed c.sender = true) := by
  rw [mem_flatMap]
  constructor
  · rintro ⟨b, hb, hm⟩
    obtain ⟨-, -, h⟩ | ⟨ht, h⟩ := st.flushOne_cases target b
    · rw [h, mem_cons] at hm
      exact absurd (hm.resolve_left (by simp)) not_forward_mem_refuse
    · simp only [h, mem_singleton, Effect.forward.injEq] at hm
      obtain ⟨rfl, rfl⟩ := hm
      exact ⟨hb, rfl, ht⟩
  · rintro ⟨hc, rfl, ht⟩
    exact ⟨c, hc, by rw [flushOne_forward ht]; exact mem_singleton_self _⟩

lemma block_mem_flush {calls : List (Call μ)} {c} :
    Effect.block c ∈ calls.flatMap (st.flushOne target) ↔
      c ∈ calls ∧ st.restricted = true ∧ st.listed c.sender = false := by
  rw [mem_flatMap]
  constructor
  · rintro ⟨b, hb, hm⟩
    obtain ⟨hr, hl, h⟩ | ⟨-, h⟩ := st.flushOne_cases target b
    · rw [h, mem_cons] at hm
      obtain hm | hm := hm
      · obtain rfl : c = b := by simpa using hm
        exact ⟨hb, hr, hl⟩
      · exact absurd hm not_block_mem_refuse
    · simp [h] at hm
  · rintro ⟨hc, hr, hl⟩
    exact ⟨c, hc, by rw [flushOne_blocked hr hl]; exact mem_cons_self⟩

end ProxyState

/-- The messages that a proxy which has not retired can handle, each with what the proxy does:
the default handler has three outcomes, `down` two. -/
inductive Steps (node : ℕ) (p : Proxy μ) : ProxyMsg μ → Proxy μ → Prop where
  | buffer {call : Call μ} (hp : p.state.paused = true) :
      Steps node p (.client call)
        { p with state := { p.state with buffered := p.state.buffered ++ [call] } }
  | block {call : Call μ} (hp : p.state.paused = false) (hr : p.state.restricted = true)
      (ht : p.state.trusted node call.sender = false) :
      Steps node p (.client call) { p with log := p.log ++ .block call :: call.refuse notTrusted }
  | forward {call : Call μ} {target : Address} (hc : p.state.current = some target)
      (hp : p.state.paused = false)
      (ht : p.state.restricted = true → p.state.trusted node call.sender = true) :
      Steps node p (.client call) { p with log := p.log ++ [.forward target call] }
  | retire {source : Address} (hc : p.state.current = some source) :
      Steps node p (.down source)
        { state := { p.state with current := none }, log := p.log ++ [.quit] }
  | ignore {source : Address} (hc : p.state.current ≠ some source) : Steps node p (.down source) p
  | setAcl {allowed : List (Option Address)} :
      Steps node p (.setAcl allowed)
        { p with state := { p.state with allowed, restricted := true } }
  | quiesce :
      Steps node p .quiesce
        { state := { p.state with paused := true }, log := p.log ++ [.ack] }
  | resume {target : Address} :
      Steps node p (.resume target)
        { state := { p.state with
            current := some target, version := p.state.version + 1, paused := false
            buffered := [] }
          log := p.log ++
            .monitor target :: p.state.buffered.flatMap (p.state.flushOne target) }

variable {node : ℕ} {p p' : Proxy μ} {m : ProxyMsg μ}

lemma step_current (h : step node p m = some p') : ∃ target, p.state.current = some target := by
  unfold step at h
  split at h
  · exact absurd h (by simp)
  · rename_i hn
    exact Option.ne_none_iff_exists'.mp (by simpa using hn)

lemma step_cases (h : step node p m = some p') : Steps node p m p' := by
  obtain ⟨target, hc⟩ := step_current h
  have h' : p' = ⟨(p.state.handle node m).1, p.log ++ (p.state.handle node m).2⟩ := by
    simpa [step, hc] using h.symm
  cases m with
  | client call =>
    by_cases hp : p.state.paused = true
    · rw [h', ProxyState.handle, ProxyState.onClient_paused hc hp, append_nil]
      exact .buffer hp
    · replace hp : p.state.paused = false := by simpa using hp
      by_cases hr : p.state.restricted = true ∧ p.state.trusted node call.sender = false
      · rw [h', ProxyState.handle, ProxyState.onClient_blocked hc hp hr.1 hr.2]
        exact .block hp hr.1 hr.2
      · have ht : p.state.restricted = true → p.state.trusted node call.sender = true := by
          intro hr'
          by_contra hl
          exact hr ⟨hr', by simpa using hl⟩
        rw [h', ProxyState.handle, ProxyState.onClient_forward hc hp ht]
        exact .forward hc hp ht
  | down source =>
    by_cases hs : p.state.current = some source
    · rw [h', ProxyState.handle, ProxyState.onDown, if_pos hs]
      exact .retire hs
    · rw [h', ProxyState.handle, ProxyState.onDown, if_neg hs, append_nil]
      exact .ignore hs
  | setAcl allowed =>
    rw [h', ProxyState.handle, ProxyState.onSetAcl, append_nil]
    exact .setAcl
  | quiesce => rw [h']; exact .quiesce
  | resume target => rw [h']; exact .resume

/-! ## Delivery -/

/-- What the new effects `effects` of handling `m` tell: a forwarded call passed its check and
went to the target that is current afterwards, with the proxy unpaused; a blocked one failed it. -/
structure Sound (node : ℕ) (m : ProxyMsg μ) (after : ProxyState μ) (effects : List (Effect μ)) :
    Prop where
  forwarded : ∀ target call, Effect.forward target call ∈ effects →
    after.current = some target ∧ after.paused = false ∧ passes node after m call
  blocked : ∀ call, Effect.block call ∈ effects → ¬ passes node after m call

/-- **One message.**  Whatever is forwarded while a message is handled goes to the current target
of an unpaused proxy and has passed the check. -/
lemma step_sound (h : step node p m = some p') :
    ∃ effects, p'.log = p.log ++ effects ∧ Sound node m p'.state effects := by
  cases step_cases h with
  | buffer hp | ignore hc | setAcl => exact ⟨[], by simp, by simp, by simp⟩
  | block hp hr ht =>
    rename_i call
    refine ⟨_, rfl, ?_, ?_⟩
    · intro t c hm
      rw [mem_cons] at hm
      exact absurd (hm.resolve_left (by simp)) not_forward_mem_refuse
    · intro c hm hpass
      obtain hm | hm := mem_cons.mp hm
      · obtain rfl : c = call := by simpa using hm
        have := hpass hr
        simp [ht] at this
      · exact not_block_mem_refuse hm
  | forward hc hp ht =>
    refine ⟨_, rfl, ?_, by simp⟩
    intro t c hm
    obtain ⟨rfl, rfl⟩ : t = _ ∧ c = _ := by simpa using hm
    exact ⟨hc, hp, ht⟩
  | retire hc | quiesce => exact ⟨_, rfl, by simp, by simp⟩
  | resume =>
    refine ⟨_, rfl, ?_, ?_⟩
    · intro t c hm
      obtain ⟨-, rfl, ht⟩ := ProxyState.forward_mem_flush.mp ((mem_cons.mp hm).resolve_left
        (by simp))
      exact ⟨rfl, rfl, ht⟩
    · intro c hm hpass
      obtain ⟨-, hr, hl⟩ := ProxyState.block_mem_flush.mp ((mem_cons.mp hm).resolve_left
        (by simp))
      have : p.state.listed c.sender = true := hpass hr
      simp [hl] at this

/-- An unpaused proxy has nothing in its buffer; every blocked request, and nothing else, has had
one error reply. -/
structure Orderly (p : Proxy μ) : Prop where
  idle : p.state.paused = false → p.state.buffered = []
  replies : p.answered = (p.blocked.filter Call.isRequest).map fun c => (c, notTrusted)

lemma Orderly.spawn (target : Address) (cross : Bool) :
    Orderly (spawnServiceProxy target cross : Proxy μ) :=
  ⟨fun _ => rfl, rfl⟩

lemma Orderly.log_append {q : Proxy μ} {effects} (ho : Orderly p) (hlog : q.log = p.log ++ effects)
    (he : effects.filterMap Effect.answers
      = ((effects.filterMap Effect.blocks).filter Call.isRequest).map fun c => (c, notTrusted)) :
    q.answered = (q.blocked.filter Call.isRequest).map fun c => (c, notTrusted) := by
  have hr := ho.replies
  unfold Proxy.answered Proxy.blocked at hr ⊢
  simp [hlog, filter_append, hr, he]

lemma Orderly.step (ho : Orderly p) (h : step node p m = some p') : Orderly p' := by
  cases step_cases h with
  | buffer hp => exact ⟨fun hn => absurd (hp.symm.trans hn) (by simp), ho.replies⟩
  | block hp hr ht =>
    exact ⟨ho.idle, ho.log_append rfl (by
      simp [filterMap_cons, Effect.answers, Effect.blocks])⟩
  | forward hc hp ht | retire hc => exact ⟨ho.idle, ho.log_append rfl rfl⟩
  | ignore hc => exact ho
  | setAcl => exact ⟨ho.idle, ho.replies⟩
  | quiesce => exact ⟨fun hn => absurd hn (by simp), ho.log_append rfl rfl⟩
  | resume =>
    exact ⟨fun _ => rfl, ho.log_append rfl (by
      simpa [filterMap_cons, Effect.answers, Effect.blocks] using
        p.state.flush_answers _ _)⟩

/-- One message moves the account of the calls: what is settled and then what is buffered grows
by the call that arrived. -/
lemma step_accounts (ho : Orderly p) (h : step node p m = some p') :
    p'.settled ++ p'.state.buffered = p.settled ++ p.state.buffered ++ m.call.toList := by
  cases step_cases h with
  | buffer hp | setAcl => simp [Proxy.settled, ProxyMsg.call]
  | block hp hr ht | forward hc hp ht =>
    simp [Proxy.settled, ProxyMsg.call, Effect.settles, ho.idle hp]
  | retire hc | quiesce => simp [Proxy.settled, ProxyMsg.call, Effect.settles]
  | ignore hc => simp [ProxyMsg.call]
  | resume =>
    simp [Proxy.settled, ProxyMsg.call, filterMap_cons, Effect.settles,
      ProxyState.flush_settles]

/-- Over a whole run the account grows by the calls among the messages. -/
lemma run_accounts {ms} :
    ∀ {p p' : Proxy μ}, Orderly p → Machine.run (step node) p ms = some p' →
      Orderly p' ∧
        p'.settled ++ p'.state.buffered
          = p.settled ++ p.state.buffered ++ ms.filterMap ProxyMsg.call := by
  induction ms with
  | nil =>
    intro p p' ho h
    obtain rfl : p = p' := by simpa using h
    exact ⟨ho, by simp⟩
  | cons m ms ih =>
    intro p p' ho h
    obtain ⟨q, hq, hrest⟩ := Machine.run_cons.mp h
    obtain ⟨ho', hacc⟩ := ih (ho.step hq) hrest
    refine ⟨ho', ?_⟩
    rw [hacc, step_accounts ho hq]
    cases hm : m.call <;> simp [hm]

/-- **Delivery.**  However client messages, `quiesce`, `resume`, `set_acl` and `down` follow on
each other: the calls forwarded or blocked so far, in this order, and then the buffer are exactly
the calls that arrived, in the order of their arrival; so each is settled at most once and what is
not settled is in the buffer, which only a paused proxy has.  The error replies are one for each
blocked request.  And at every message, what is forwarded has passed its check and goes to the
current target of an unpaused proxy, while what is blocked has failed the check. -/
theorem proxy_delivery {target : Address} {cross : Bool} {ms : List (ProxyMsg μ)}
    (h : Machine.run (step node) (spawnServiceProxy target cross) ms = some p) :
    p.settled ++ p.state.buffered = ms.filterMap ProxyMsg.call ∧
      (p.state.paused = false → p.state.buffered = []) ∧
      p.answered = (p.blocked.filter Call.isRequest).map (fun c => (c, notTrusted)) ∧
      ∀ front m back q q', ms = front ++ m :: back →
        Machine.run (step node) (spawnServiceProxy target cross) front = some q →
        step node q m = some q' →
        ∃ effects, q'.log = q.log ++ effects ∧ Sound node m q'.state effects := by
  obtain ⟨ho, hacc⟩ := run_accounts (Orderly.spawn target cross) h
  refine ⟨by simpa [Proxy.settled, spawnServiceProxy, filterMap_cons, Effect.settles] using hacc, ho.idle,
    ho.replies, ?_⟩
  intro front m back q q' _ _ hstep
  exact step_sound hstep

namespace Sample

/-- The implementation before and after a hot reload, a trusted client and two others. -/
def old : Address := ⟨0, 1⟩
def new : Address := ⟨0, 2⟩
def friend : Address := ⟨0, 3⟩
def stranger : Address := ⟨0, 4⟩
def abroad : Address := ⟨1, 5⟩

/-- A call is buffered during a reload while the allow list is replaced. -/
def handover : List (ProxyMsg ℕ) :=
  [.client ⟨1, some friend, true⟩, .quiesce, .client ⟨2, some stranger, true⟩,
    .client ⟨3, some friend, false⟩, .setAcl [some friend], .resume new, .down old,
    .client ⟨4, none, true⟩]

end Sample

/-- Delivery over a hot reload that restricts the service: the stranger's buffered request and
the anonymous one afterwards are answered with an error, the other two calls are forwarded. -/
theorem proxy_delivery_handover :
    ∃ p, Machine.run (step 0) (spawnServiceProxy Sample.old false) Sample.handover = some p ∧
      p.settled ++ p.state.buffered = Sample.handover.filterMap ProxyMsg.call :=
  ⟨_, rfl, (proxy_delivery (rfl : Machine.run (step 0) (spawnServiceProxy Sample.old false) Sample.handover = some _)).1⟩

/-! ## The two checks compared -/

/-- Among `effects`, `call` is forwarded to someone. -/
def Accepted (effects : List (Effect μ)) (call : Call μ) : Prop :=
  ∃ target, Effect.forward target call ∈ effects

/-- Among `effects`, `call` is blocked. -/
def Refused (effects : List (Effect μ)) (call : Call μ) : Prop := Effect.block call ∈ effects

/-- A sender that only the cross-node setting lets in: its node is another one and the allow list
does not name it. -/
def OnlyCrossNode (node : ℕ) (st : ProxyState μ) (sender : Option Address) : Prop :=
  st.restricted = true ∧ st.allowCrossNode = true ∧ remote node sender = true ∧
    st.listed sender = false

instance (node : ℕ) (st : ProxyState μ) (sender : Option Address) :
    Decidable (OnlyCrossNode node st sender) :=
  inferInstanceAs (Decidable (_ ∧ _ ∧ _ ∧ _))

section

variable {st : ProxyState μ} {call : Call μ} (hb : call ∈ st.buffered)
include hb

lemma accepted_flush {target : Address} :
    Accepted (st.onResume target).2 call ↔ (st.restricted = true → st.listed call.sender = true) := by
  constructor
  · rintro ⟨t, ht⟩
    exact (ProxyState.forward_mem_flush.mp ((mem_cons.mp ht).resolve_left (by simp))).2.2
  · intro hl
    exact ⟨target, mem_cons_of_mem _ (ProxyState.forward_mem_flush.mpr ⟨hb, rfl, hl⟩)⟩

lemma refused_flush {target : Address} :
    Refused (st.onResume target).2 call ↔ st.restricted = true ∧ st.listed call.sender = false := by
  constructor
  · intro ht
    exact (ProxyState.block_mem_flush.mp ((mem_cons.mp ht).resolve_left (by simp))).2
  · intro hl
    exact mem_cons_of_mem _ (ProxyState.block_mem_flush.mpr ⟨hb, hl⟩)

end

/-- The state after the flush: unpaused, with the allow list that was in force during it. -/
lemma onResume_state (st : ProxyState μ) (target : Address) :
    (st.onResume target).1.current = some target ∧ (st.onResume target).1.paused = false ∧
      (st.onResume target).1.restricted = st.restricted ∧
      (st.onResume target).1.allowed = st.allowed ∧
      (st.onResume target).1.allowCrossNode = st.allowCrossNode :=
  ⟨rfl, rfl, rfl, rfl, rfl⟩

section

variable {st : ProxyState μ} {target : Address} (hc : st.current = some target)
  (hp : st.paused = false)
include hc hp

lemma accepted_direct {call : Call μ} :
    Accepted (st.onClient node call).2 call ↔
      (st.restricted = true → st.trusted node call.sender = true) := by
  by_cases ht : st.restricted = true → st.trusted node call.sender = true
  · rw [ProxyState.onClient_forward hc hp ht]
    exact ⟨fun _ => ht, fun _ => ⟨target, mem_singleton_self _⟩⟩
  · obtain ⟨hr, hf⟩ : st.restricted = true ∧ st.trusted node call.sender = false := by
      simpa using ht
    rw [ProxyState.onClient_blocked hc hp hr hf]
    refine ⟨?_, fun h => absurd h ht⟩
    rintro ⟨t, hm⟩
    exact absurd ((mem_cons.mp hm).resolve_left (by simp)) not_forward_mem_refuse

lemma refused_direct {call : Call μ} :
    Refused (st.onClient node call).2 call ↔
      st.restricted = true ∧ st.trusted node call.sender = false := by
  by_cases hr : st.restricted = true ∧ st.trusted node call.sender = false
  · rw [ProxyState.onClient_blocked hc hp hr.1 hr.2]
    exact ⟨fun _ => hr, fun _ => mem_cons_self⟩
  · have ht : st.restricted = true → st.trusted node call.sender = true := by
      intro hr'
      by_contra hl
      exact hr ⟨hr', by simpa using hl⟩
    rw [ProxyState.onClient_forward hc hp ht]
    exact ⟨fun h => absurd h (by simp [Refused]), fun h => absurd h hr⟩

end

/-- **The flush and the direct path.**  A buffered call is accepted and refused by the flush
exactly as the same call arriving right after it would be, unless its sender is one that only the
cross-node setting lets in: the flush loop does not look at that setting. -/
theorem flush_agrees {st : ProxyState μ} {target : Address} {call : Call μ}
    (hb : call ∈ st.buffered) :
    ((Accepted (st.onResume target).2 call ↔
          Accepted ((st.onResume target).1.onClient node call).2 call) ∧
        (Refused (st.onResume target).2 call ↔
          Refused ((st.onResume target).1.onClient node call).2 call)) ↔
      ¬ OnlyCrossNode node st call.sender := by
  obtain ⟨hc, hp, -⟩ := onResume_state st target
  rw [accepted_flush hb, refused_flush hb, accepted_direct hc hp, refused_direct hc hp]
  simp only [OnlyCrossNode, ProxyState.onResume, ProxyState.trusted, ProxyState.listed]
  cases st.restricted <;> cases st.allowCrossNode <;> cases remote node call.sender <;>
    cases st.allowed.contains call.sender <;> simp

/-- A local caller that is not on the allow list is refused on either path. -/
theorem flush_agrees_local :
    let st : ProxyState ℕ :=
      { current := some Sample.old, restricted := true, allowed := [some Sample.friend]
        allowCrossNode := true, paused := true, buffered := [⟨1, some Sample.stranger, true⟩] }
    Refused (st.onResume Sample.new).2 ⟨1, some Sample.stranger, true⟩ ↔
      Refused ((st.onResume Sample.new).1.onClient 0 ⟨1, some Sample.stranger, true⟩).2
        ⟨1, some Sample.stranger, true⟩ :=
  And.right (Iff.mpr (flush_agrees mem_cons_self) (by decide))

/-- A caller on another node, with cross-node trust switched on: refused by the flush, forwarded
when it arrives a moment later. -/
theorem flush_refuses_remote :
    let st : ProxyState ℕ :=
      { current := some Sample.old, restricted := true, allowed := [some Sample.friend]
        allowCrossNode := true, paused := true, buffered := [⟨1, some Sample.abroad, true⟩] }
    Refused (st.onResume Sample.new).2 ⟨1, some Sample.abroad, true⟩ ∧
      Accepted ((st.onResume Sample.new).1.onClient 0 ⟨1, some Sample.abroad, true⟩).2
        ⟨1, some Sample.abroad, true⟩ :=
  ⟨by unfold Refused; decide, Sample.new, by decide⟩

end Caf.Service
