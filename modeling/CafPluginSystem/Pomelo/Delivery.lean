import CafPluginSystem.Library.History
import CafPluginSystem.Pomelo.Endpoint

/-!
# Who gets what

Answers of services come in at any time: the connection that asked may be marked or closed by then, and users may have
moved to other connections.  As long as handles are not used again, each thing that is written from outside a session goes
where it belongs.

* `Tidy` — the log of a session: each package has its own number, and leads to one refusal or one request to a service.
* `Books` — the tables of the endpoint agree with the trace of the run.
* `delivery` — **in every run, answers go to the connection that asked**, once for each request and with its id; a push for
  a user goes to the connection that was bound last and has not closed; a push for all goes to connections that have
  acknowledged the handshake and have not closed.
-/

namespace Caf.Pomelo

open Chunks EntityStore List Std.ExtTreeMap Option

variable {e : Effect} {front : List Effect} {n : ℕ}

/-! ## What is promised -/

/-- The number of the request on whose account something is written. -/
def Cause.request? : Cause → Option ℕ
  | .refusal n => some n
  | .reply n => some n
  | _ => none

def Effect.answers (n : ℕ) : Effect → Bool
  | .write cause _ => cause.request? = some n
  | _ => false

def Effect.isPackage (n : ℕ) : Effect → Bool
  | .package m _ => m = n
  | _ => false

def Action.effect? (h : Handle) : Action → Option Effect
  | .on h' e => if h' = h then some e else none
  | _ => none

/-- What a connection has done. -/
def logOf (h : Handle) (trace : List Action) : List Effect := trace.filterMap (Action.effect? h)

/-- The package with this number is a request with this id. -/
def Asked (log : List Effect) (n : ℕ) (id : UInt32) : Prop :=
  ∃ pkg msg, Effect.package n pkg ∈ log ∧ pkg.type = pkgData ∧ parseMsg pkg.body = some msg ∧
    msg.type = msgRequest ∧ msg.id = id

/-- An answer with this id, on one of the transports. -/
def IsResponse (id : UInt32) (bytes : Bytes) : Prop :=
  ∃ text, bytes = responseFrame id text ∨ bytes = encodeFrame opBinary (responseFrame id text)

/-- The connection was the last one to be bound to the user, and has not closed since. -/
def MostRecent (uid : Bytes) (h : Handle) (trace : List Action) : Prop :=
  ∃ front back, trace = front ++ .on h (.bind uid) :: back ∧ (∀ h', Action.on h' (.bind uid) ∉ back) ∧
    Action.closed h ∉ back

/-- The connection has acknowledged the handshake, and has not closed since. -/
def Acknowledged (h : Handle) (trace : List Action) : Prop :=
  ∃ front back, trace = front ++ .on h .acknowledge :: back ∧ Action.closed h ∉ back

/-- Everything goes where it belongs. -/
structure Delivery (trace : List Action) : Prop where
  single : ∀ h n, (logOf h trace).countP (Effect.isPackage n) ≤ 1
  once : ∀ h n, (logOf h trace).countP (Effect.answers n) ≤ 1
  own : ∀ front back h cause bytes n, trace = front ++ .on h (.write cause bytes) :: back → cause.request? = some n →
    ∃ id, Asked (logOf h front) n id ∧ IsResponse id bytes
  bound : ∀ front back h uid bytes, trace = front ++ .on h (.write (.push uid) bytes) :: back → MostRecent uid h front
  acknowledged : ∀ front back h bytes, trace = front ++ .on h (.write .broadcast bytes) :: back → Acknowledged h front

/-- Handles are not used again. -/
def Anew (s : Endpoint) : Event → Prop
  | .accepted h => Action.accepted h ∉ s.trace
  | _ => True

instance (s : Endpoint) : (e : Event) → Decidable (Anew s e)
  | .accepted h => inferInstanceAs (Decidable (Action.accepted h ∉ s.trace))
  | .data _ _ _ | .closed _ | .resolved _ _ | .replied _ _ | .push _ _ => .isTrue trivial

/-! ## The log of a session -/

def Effect.number? : Effect → Option ℕ
  | .package n _ => some n
  | .write (.refusal n) _ => some n
  | .dispatch n _ _ _ _ => some n
  | _ => none

def Effect.refuses (n : ℕ) : Effect → Bool
  | .write (.refusal m) _ => m = n
  | _ => false

def Effect.replies (n : ℕ) : Effect → Bool
  | .write (.reply m) _ => m = n
  | _ => false

def Effect.dispatches (n : ℕ) : Effect → Bool
  | .dispatch m _ _ _ _ => m = n
  | _ => false

/-- What is written on account of a request, or asked of a service, has its request before it. -/
def Justified (e : Effect) (front : List Effect) : Prop :=
  match e with
  | .write cause bytes => ∀ n, cause.request? = some n → ∃ id, Asked front n id ∧ IsResponse id bytes
  | .dispatch n (some id) _ _ _ => Asked front n id
  | _ => True

lemma Asked.mono {id} (h : Asked front n id) (more : List Effect) :
    Asked (front ++ more) n id := by
  obtain ⟨pkg, msg, hmem, hrest⟩ := h
  exact ⟨pkg, msg, mem_append_left _ hmem, hrest⟩

lemma Justified.mono (h : Justified e front) (more : List Effect) :
    Justified e (front ++ more) := by
  cases e with
  | write cause bytes =>
    intro n hn
    obtain ⟨id, hasked, hresponse⟩ := h n hn
    exact ⟨id, hasked.mono more, hresponse⟩
  | dispatch n id svc function body =>
    cases id with
    | none => trivial
    | some id => exact Asked.mono h more
  | package n pkg | bind uid | acknowledge | mark | dangling => trivial

/-- A log in which so many packages have been numbered. -/
structure Tidy (served : ℕ) (log : List Effect) : Prop where
  numbers : ∀ e ∈ log, ∀ n, e.number? = some n → n < served
  once : ∀ n, log.countP (Effect.refuses n) + log.countP (Effect.dispatches n) ≤ 1
  single : ∀ n, log.countP (Effect.isPackage n) ≤ 1
  justified : History.Guarded Justified log

namespace Tidy

variable {served : ℕ} {log es : List Effect}

lemma nil : Tidy 0 [] := ⟨by simp, by simp, by simp, History.Guarded.nil⟩

/-- An effect without the number does none of the three. -/
lemma silent (h : e.number? ≠ some n) :
    e.refuses n = false ∧ e.dispatches n = false ∧ e.isPackage n = false := by
  cases e with
  | write cause bytes =>
    cases cause with
    | refusal m => exact ⟨by simpa [Effect.number?, Effect.refuses] using h, rfl, rfl⟩
    | protocol | reply m | push uid | broadcast => exact ⟨rfl, rfl, rfl⟩
  | dispatch m id svc function body => exact ⟨rfl, by simpa [Effect.number?, Effect.dispatches] using h, rfl⟩
  | package m pkg => exact ⟨rfl, rfl, by simpa [Effect.number?, Effect.isPackage] using h⟩
  | bind uid | acknowledge | mark | dangling => exact ⟨rfl, rfl, rfl⟩

lemma countP_silent (h : ∀ e ∈ es, e.number? ≠ some n) : es.countP (Effect.refuses n) = 0 ∧
    es.countP (Effect.dispatches n) = 0 ∧ es.countP (Effect.isPackage n) = 0 := by
  simp only [countP_eq_zero]
  exact ⟨fun e he => by simp [(silent (h e he)).1], fun e he => by simp [(silent (h e he)).2.1],
    fun e he => by simp [(silent (h e he)).2.2]⟩

variable (h : Tidy served log)
include h

/-- Effects without numbers. -/
lemma quiet (hes : ∀ e ∈ es, e.number? = none ∧ Justified e log) : Tidy served (log ++ es) := by
  have hcount : ∀ n, es.countP (Effect.refuses n) = 0 ∧ es.countP (Effect.dispatches n) = 0 ∧
      es.countP (Effect.isPackage n) = 0 := fun n => countP_silent fun e he => by simp [(hes e he).1]
  refine ⟨fun e he n hn => ?_, fun n => ?_, fun n => ?_, ?_⟩
  · rcases mem_append.mp he with he | he
    · exact h.numbers e he n hn
    · simp [(hes e he).1] at hn
  · obtain ⟨hr, hd, -⟩ := hcount n
    have hlog := h.once n
    rw [countP_append, countP_append]
    omega
  · obtain ⟨-, -, hp⟩ := hcount n
    have hlog := h.single n
    rw [countP_append]
    omega
  · refine h.justified.append fun front e back hsplit => ?_
    exact (hes e (by simp [hsplit])).2.mono front

/-- The number of the next package is not in use. -/
lemma unused : log.countP (Effect.refuses served) = 0 ∧
    log.countP (Effect.dispatches served) = 0 ∧ log.countP (Effect.isPackage served) = 0 :=
  countP_silent fun e he hn => Nat.lt_irrefl _ (h.numbers e he _ hn)

lemma begun (pkg : ParsedPkg) : Tidy (served + 1) (log ++ [.package served pkg]) := by
  refine ⟨fun e he n hn => ?_, fun n => ?_, fun n => ?_, h.justified.snoc trivial⟩
  · rcases mem_append.mp he with he | he
    · exact Nat.lt_succ_of_lt (h.numbers e he n hn)
    · obtain rfl : e = _ := by simpa using he
      obtain rfl : served = n := by simpa [Effect.number?] using hn
      exact Nat.lt_succ_self _
  · have hlog := h.once n
    simpa [countP_append, Effect.refuses, Effect.dispatches] using hlog
  · rw [countP_append]
    by_cases hn : served = n
    · subst hn
      rw [h.unused.2.2]
      simp [Effect.isPackage]
    · have hlog := h.single n
      simpa [Effect.isPackage, hn] using hlog

/-- A package with what comes of it: a refusal or a request to a service. -/
lemma opened (pkg : ParsedPkg) (hnum : e.number? = some served)
    (hpkg : ∀ n, e.isPackage n = false) (hboth : ∀ n, ¬ (e.refuses n = true ∧ e.dispatches n = true))
    (hjust : Justified e (log ++ [.package served pkg])) :
    Tidy (served + 1) (log ++ [.package served pkg] ++ [e]) := by
  have hbegun := h.begun pkg
  refine ⟨fun e' he n hn => ?_, fun n => ?_, fun n => ?_, hbegun.justified.snoc hjust⟩
  · rcases mem_append.mp he with he | he
    · exact hbegun.numbers e' he n hn
    · obtain rfl : e' = e := by simpa using he
      obtain rfl : served = n := some.inj (hnum.symm.trans hn)
      exact Nat.lt_succ_self _
  · simp only [countP_append, countP_singleton]
    by_cases hn : served = n
    · subst hn
      obtain ⟨hr, hd, -⟩ := h.unused
      have hno := hboth served
      rw [hr, hd]
      cases hre : e.refuses served with
      | false => cases hde : e.dispatches served <;> simp [Effect.refuses, Effect.dispatches]
      | true =>
        cases hde : e.dispatches served with
        | false => simp [Effect.refuses, Effect.dispatches]
        | true => exact absurd ⟨hre, hde⟩ hno
    · obtain ⟨hr, hd, -⟩ := silent (n := n) (e := e) (by rw [hnum]; simpa using hn)
      have hlog := hbegun.once n
      simpa [hr, hd] using hlog
  · have hlog := hbegun.single n
    rw [countP_append]
    simpa [hpkg n] using hlog

end Tidy

/-- What a session does by itself: it writes for the protocol and to refuse a request. -/
def Effect.isInner : Effect → Bool
  | .write (.reply _) _ => false
  | .write (.push _) _ => false
  | .write .broadcast _ => false
  | _ => true

/-- A session that goes on from a log by itself. -/
structure Onwards (log : List Effect) (s : Session) : Prop where
  tidy : Tidy s.served s.log
  ready : s.ready = some true → Effect.acknowledge ∈ s.log
  grown : ∃ new, s.log = log ++ new ∧ ∀ e ∈ new, e.isInner = true

namespace Onwards

variable {log : List Effect} {cfg : Config} {s t : Session} {pkg : ParsedPkg}

/-- The session does something more. -/
lemma grow (h : Onwards log s) (es : List Effect) (ht : t.log = s.log ++ es) (htidy : Tidy t.served t.log)
    (hready : t.ready = some true → s.ready = some true ∨ Effect.acknowledge ∈ es)
    (hes : ∀ e ∈ es, e.isInner = true) : Onwards log t := by
  refine ⟨htidy, fun hr => ?_, ?_⟩
  · rw [ht]
    rcases hready hr with hr | hr
    · exact mem_append_left _ (h.ready hr)
    · exact mem_append_right _ hr
  · obtain ⟨new, hnew, hinner⟩ := h.grown
    refine ⟨new ++ es, by rw [ht, hnew, append_assoc], fun e he => ?_⟩
    rcases mem_append.mp he with he | he
    · exact hinner e he
    · exact hes e he

/-- What is written for the protocol. -/
lemma written_protocol (s : Session) (frame : Bytes) : ∀ e ∈ s.written .protocol frame,
    e.number? = none ∧ e.isInner = true ∧ ∀ front, Justified e front := by
  intro e he
  unfold Session.written at he
  split at he
  · simp at he
  · obtain rfl : e = _ := by simpa using he
    exact ⟨rfl, rfl, fun front n hn => by simp [Cause.request?] at hn⟩

lemma isResponse_wrap (s : Session) (id : UInt32) (text : Bytes) : IsResponse id (s.wrap (responseFrame id text)) := by
  unfold Session.wrap
  split
  · exact ⟨text, .inr rfl⟩
  · exact ⟨text, .inl rfl⟩

/-- A package that brings about effects without numbers. -/
lemma package (h : Onwards log s) (pkg : ParsedPkg) (es : List Effect) (hes : ∀ e ∈ es, e.number? = none ∧ e.isInner = true ∧
    ∀ front, Justified e front) (ht : t.log = (s.begun pkg).log ++ es) (hserved : t.served = s.served + 1)
    (hready : t.ready = some true → s.ready = some true ∨ Effect.acknowledge ∈ es) : Onwards log t := by
  have hlog : t.log = s.log ++ (.package s.served pkg :: es) := by
    rw [ht]
    simp [Session.begun]
  refine h.grow _ hlog ?_ (fun hr => (hready hr).imp_right (mem_cons_of_mem _)) (fun e he => ?_)
  · rw [ht, hserved]
    exact (h.tidy.begun pkg).quiet fun e he => ⟨(hes e he).1, (hes e he).2.2 _⟩
  · rcases mem_cons.mp he with rfl | he
    · rfl
    · exact (hes e he).2.1

lemma handling (h : Onwards log s) (ht : Session.Handling cfg s pkg t) : Onwards log t := by
  cases ht with
  | handshake htype =>
    refine h.package pkg _ (fun e he => ?_) rfl rfl .inl
    rcases mem_append.mp he with he | he
    · split at he
      · simp at he
      · obtain rfl : e = _ := by simpa using he
        exact ⟨rfl, rfl, fun _ => trivial⟩
    · exact written_protocol _ _ e he
  | acknowledge htype =>
    refine h.package pkg [.acknowledge] (fun e he => ?_) rfl rfl (fun _ => .inr (by simp))
    obtain rfl : e = _ := by simpa using he
    exact ⟨rfl, rfl, fun _ => trivial⟩
  | heartbeat htype => exact h.package pkg _ (written_protocol _ _) rfl rfl .inl
  | strange hno | ignored htype hmsg hroute =>
    exact h.package pkg [] (by simp) (append_nil _).symm rfl .inl
  | malformed htype hmsg =>
    refine h.package pkg [.mark] (fun e he => ?_) rfl rfl (fun hr => by simp [Session.adds] at hr)
    obtain rfl : e = _ := by simpa using he
    exact ⟨rfl, rfl, fun _ => trivial⟩
  | refused text htype hmsg hreq hroute =>
    rename_i msg
    by_cases hbad : s.bad = true
    · exact h.package pkg [] (by simp) (by simp [Session.adds, Session.written, hbad]) rfl .inl
    · have hwritten : s.written (.refusal s.served) (responseFrame msg.id text)
          = [.write (.refusal s.served) (s.wrap (responseFrame msg.id text))] := by
        simp [Session.written, hbad]
      rw [hwritten]
      have hasked : Asked (s.log ++ [.package s.served pkg]) s.served msg.id :=
        ⟨pkg, msg, by simp, htype, hmsg, hreq, rfl⟩
      refine h.grow [.package s.served pkg,
        .write (.refusal s.served) (s.wrap (responseFrame msg.id text))] (by simp [Session.adds, Session.begun]) ?_ .inl
        (by simp [Effect.isInner])
      refine h.tidy.opened pkg rfl (fun _ => rfl) (fun _ => by simp [Effect.dispatches]) (fun n hn => ?_)
      obtain rfl : s.served = n := by simpa [Cause.request?] using hn
      exact ⟨msg.id, hasked, isResponse_wrap s msg.id text⟩
  | dispatched htype hmsg hid hroute =>
    rename_i msg id svc function
    refine h.grow [.package s.served pkg, .dispatch s.served id svc function msg.body]
      (by simp [Session.adds, Session.begun]) ?_ .inl (by simp [Effect.isInner])
    refine h.tidy.opened pkg rfl (fun _ => rfl) (fun _ => by simp [Effect.refuses]) ?_
    rcases hid with ⟨hreq, rfl⟩ | ⟨-, rfl⟩
    · exact ⟨pkg, msg, by simp, htype, hmsg, hreq, rfl⟩
    · trivial

/-- An effect without a number. -/
lemma quiet (h : Onwards log s) (es : List Effect) (hes : ∀ e ∈ es, e.number? = none ∧ e.isInner = true ∧
    ∀ front, Justified e front) (ht : t.log = s.log ++ es) (hserved : t.served = s.served)
    (hready : t.ready = some true → s.ready = some true) : Onwards log t := by
  refine h.grow es ht ?_ (fun hr => .inl (hready hr)) (fun e he => (hes e he).2.1)
  rw [ht, hserved]
  exact h.tidy.quiet fun e he => ⟨(hes e he).1, (hes e he).2.2 _⟩

lemma keeps (cfg : Config) (log : List Effect) : Keeps cfg (Onwards log) where
  package := fun pkg h => h.handling (Session.handlePackage_handling _ _ pkg)
  arrange := fun _ _ _ _ h => ⟨h.tidy, h.ready, h.grown⟩
  write := by
    intro s bytes h
    rw [Session.writeRaw_eq]
    refine h.quiet _ (fun e he => ?_) rfl rfl id
    split at he
    · simp at he
    · obtain rfl : e = _ := by simpa using he
      exact ⟨rfl, rfl, fun front n hn => by simp [Cause.request?] at hn⟩
  mark := by
    intro s ready hready h
    refine h.quiet [.mark] (by simp [Effect.number?, Effect.isInner, Justified]) rfl rfl (fun hr => ?_)
    have hr' : ready = some true := hr
    rcases hready with rfl | rfl
    · simp at hr'
    · exact hr'
  dangling := fun h =>
    h.quiet [.dangling] (by simp [Effect.number?, Effect.isInner, Justified]) rfl rfl id

/-- New data. -/
lemma receive (cfg : Config) {c} (htidy : Tidy c.state.served c.state.log)
    (hready : c.state.ready = some true → Effect.acknowledge ∈ c.state.log) (chunk : Bytes) (stale : List Bytes) :
    Onwards c.state.log (receive cfg c chunk stale).state :=
  (keeps cfg c.state.log).receive ⟨htidy, hready, [], by simp, by simp⟩ chunk stale

end Onwards

/-! ## The trace -/

section Trace

variable {h h' : Handle} {trace more : List Action} {new : List Effect}

@[simp] lemma logOf_append : logOf h (trace ++ more) = logOf h trace ++ logOf h more := filterMap_append

@[simp] lemma logOf_on (new : List Effect) : logOf h (new.map (.on h)) = new := by
  induction new with
  | nil => rfl
  | cons e new ih =>
    rw [map_cons, logOf, filterMap_cons_some (b := e) (by simp [Action.effect?])]
    exact congrArg (e :: ·) ih

lemma logOf_on_ne (hne : h ≠ h') (new : List Effect) : logOf h' (new.map (.on h)) = [] := by
  rw [logOf, filterMap_eq_nil_iff]
  intro a ha
  obtain ⟨e, -, rfl⟩ := mem_map.mp ha
  simp [Action.effect?, hne]

lemma on_mem_of_mem_logOf (hmem : e ∈ logOf h trace) : Action.on h e ∈ trace := by
  obtain ⟨a, ha, heff⟩ := mem_filterMap.mp hmem
  cases a with
  | on g e' =>
    obtain ⟨rfl, rfl⟩ : g = h ∧ e' = e := by simpa [Action.effect?] using heff
    exact ha
  | accepted g | closed g | envelope g n svc function body => simp [Action.effect?] at heff

/-- The bindings that a trace leaves. -/
def bindAction (uids : StringMap Handle) : Action → StringMap Handle
  | .on h e => bindUid h uids e
  | .closed h => uids.filter fun _ bound => bound ≠ h
  | _ => uids

def bindings (trace : List Action) : StringMap Handle := trace.foldl bindAction ∅

lemma bindings_snoc (trace : List Action) (a : Action) : bindings (trace ++ [a]) = bindAction (bindings trace) a := by
  rw [bindings, foldl_append]
  rfl

lemma bindings_on (trace : List Action) (new : List Effect) :
    bindings (trace ++ new.map (.on h)) = new.foldl (bindUid h) (bindings trace) := by
  rw [bindings, foldl_append, foldl_map]
  rfl

lemma MostRecent.snoc {uid a} (hrecent : MostRecent uid h trace)
    (hbind : ∀ h', a ≠ .on h' (.bind uid)) (hclosed : a ≠ .closed h) : MostRecent uid h (trace ++ [a]) := by
  obtain ⟨front, back, rfl, hlast, hopen⟩ := hrecent
  refine ⟨front, back ++ [a], by simp, fun h' hmem => ?_, fun hmem => ?_⟩
  · rcases mem_append.mp hmem with hmem | hmem
    · exact hlast h' hmem
    · exact hbind h' (by simpa using Eq.symm (mem_singleton.mp hmem))
  · rcases mem_append.mp hmem with hmem | hmem
    · exact hopen hmem
    · exact hclosed (by simpa using Eq.symm (mem_singleton.mp hmem))

/-- A binding was made last, and not undone. -/
lemma mostRecent_of_bindings {uid} : ∀ {trace : List Action}, (bindings trace)[uid]? = some h →
    MostRecent uid h trace := by
  intro trace
  induction trace using List.reverseRecOn with
  | nil => simp [bindings]
  | append_singleton trace a ih =>
    intro hbound
    rw [bindings_snoc] at hbound
    cases a with
    | accepted g | envelope g n svc function body => exact (ih hbound).snoc (by simp) (by simp)
    | closed g =>
      rw [bindAction, Std.ExtTreeMap.getElem?_filter] at hbound
      obtain ⟨hsome, hkeep⟩ := pfilter_eq_some_iff.mp hbound
      exact (ih hsome).snoc (by simp) (by rintro ⟨⟩; simp at hkeep)
    | on g e =>
      cases e with
      | bind uid' =>
        rw [bindAction, bindUid, Std.ExtTreeMap.getElem?_insert] at hbound
        split at hbound
        · rename_i heq
          obtain rfl : uid' = uid := Std.LawfulEqCmp.compare_eq_iff_eq.mp heq
          obtain rfl : g = h := by simpa using hbound
          exact ⟨trace, [], rfl, by simp, by simp⟩
        · rename_i hne
          refine (ih hbound).snoc (fun h' heq => hne ?_) (by simp)
          obtain ⟨-, rfl⟩ : g = h' ∧ uid' = uid := by simpa using heq
          exact Std.ReflCmp.compare_self
      | package n pkg | write cause bytes | acknowledge | mark | dangling
      | dispatch n id svc function body => exact (ih hbound).snoc (by simp) (by simp)

end Trace

/-! ## The books -/

def Pending.isFor (h : Handle) (n : ℕ) (p : Pending) : Bool := p.handle = h && p.number = n

/-- A push for a user goes to the connection that is bound to it, a push for all to those that have acknowledged the
handshake. -/
def Routed (a : Action) (front : List Action) : Prop :=
  match a with
  | .on h (.write (.push uid) _) => (bindings front)[uid]? = some h
  | .on h (.write .broadcast _) => .on h .acknowledge ∈ front ∧ .closed h ∉ front
  | _ => True

/-- An open connection, and what the trace says of it. -/
structure Entered (trace : List Action) (h : Handle) (c : Connection) : Prop where
  log : logOf h trace = c.state.log
  isOpen : Action.closed h ∉ trace
  tidy : Tidy c.state.served c.state.log
  ready : c.state.ready = some true → Effect.acknowledge ∈ c.state.log

/-- **The books.**  The tables agree with the trace; every answer that was given, and every one that is still due, has its
request to a service. -/
structure Books (s : Endpoint) : Prop where
  entered : ∀ h c, s.connections[h]? = some c → Entered s.trace h c
  unknown : ∀ h, .accepted h ∉ s.trace → s.connections[h]? = none ∧ logOf h s.trace = [] ∧ .closed h ∉ s.trace
  history : ∀ h, ∃ served, Tidy served (logOf h s.trace)
  accounts : ∀ h n, (logOf h s.trace).countP (Effect.replies n) + s.pending.countP (Pending.isFor h n)
    ≤ (logOf h s.trace).countP (Effect.dispatches n)
  due : ∀ p ∈ s.pending, ∀ id, p.id = some id → Asked (logOf p.handle s.trace) p.number id
  users : s.uidMap = bindings s.trace
  routed : History.Guarded Routed s.trace

namespace Books

variable {cfg : Config} {s s' : Endpoint} {h : Handle} {c c' : Connection} {new : List Effect}
variable {p : Pending}

lemma start : Books {} where
  entered := by simp
  unknown := by simp [logOf]
  history := fun _ => ⟨0, Tidy.nil⟩
  accounts := by simp [logOf]
  due := by simp
  users := rfl
  routed := History.Guarded.nil

/-- Fewer answers are due. -/
lemma fewer (b : Books s) {pending} (hsub : pending.Sublist s.pending) : Books { s with pending } where
  entered := b.entered
  unknown := b.unknown
  history := b.history
  accounts := fun h n => (Nat.add_le_add_left (hsub.countP_le) _).trans (b.accounts h n)
  due := fun p hp => b.due p (hsub.subset hp)
  users := b.users
  routed := b.routed

/-- The requests that a session has made. -/
lemma countP_pendings (h g : Handle) (n : ℕ) (new : List Effect) : (new.filterMap (Pending.of? h)).countP (Pending.isFor g n)
    = if h = g then new.countP (Effect.dispatches n) else 0 := by
  rw [countP_filterMap]
  split
  · rename_i hg
    refine countP_congr fun e _ => ?_
    cases e <;> simp [Pending.of?, Pending.isFor, Effect.dispatches, hg]
  · rename_i hg
    rw [countP_eq_zero]
    intro e _
    cases e <;> simp [Pending.of?, Pending.isFor, hg]

lemma pending_of_mem (hp : p ∈ new.filterMap (Pending.of? h)) :
    p.handle = h ∧ Effect.dispatch p.number p.id p.svc p.function p.body ∈ new := by
  obtain ⟨e, he, hof⟩ := mem_filterMap.mp hp
  cases e with
  | dispatch m id svc function body =>
    obtain rfl : _ = p := by simpa [Pending.of?] using hof
    exact ⟨rfl, he⟩
  | package m pkg | write cause bytes | bind uid | acknowledge | mark | dangling =>
    simp [Pending.of?] at hof

/-- **A session goes on.**  Its new effects are routed, and there is a request to a service for each new answer. -/
theorem settle (b : Books s) (hc : s.connections[h]? = some c) (new : List Effect)
    (hlog : c'.state.log = c.state.log ++ new)
    (htidy : Tidy c'.state.served c'.state.log) (hready : c'.state.ready = some true → Effect.acknowledge ∈ c'.state.log)
    (hanswers : ∀ n, (logOf h s.trace).countP (Effect.replies n) + new.countP (Effect.replies n)
      + s.pending.countP (Pending.isFor h n) ≤ (logOf h s.trace).countP (Effect.dispatches n))
    (hrouted : ∀ front e back, new = front ++ e :: back → Routed (.on h e) (s.trace ++ front.map (.on h))) :
    Books (s.settle h c c') := by
  have hentered := b.entered h c hc
  have hnew : newEffects c c' = new := by rw [newEffects, hlog, drop_left]
  have htrace : (s.settle h c c').trace = s.trace ++ new.map (.on h) := by rw [Endpoint.settle, hnew]
  have hown : logOf h (s.settle h c c').trace = c'.state.log := by
    rw [htrace, logOf_append, logOf_on, hentered.log, hlog]
  have hoth : ∀ g, h ≠ g → logOf g (s.settle h c c').trace = logOf g s.trace := by
    intro g hg
    rw [htrace, logOf_append, logOf_on_ne hg, append_nil]
  have hclosed : ∀ g, Action.closed g ∈ (s.settle h c c').trace ↔ Action.closed g ∈ s.trace := by
    intro g
    rw [htrace]
    simp
  have haccepted : ∀ g, Action.accepted g ∈ (s.settle h c c').trace ↔ Action.accepted g ∈ s.trace := by
    intro g
    rw [htrace]
    simp
  have hmono : ∀ {g n id}, Asked (logOf g s.trace) n id → Asked (logOf g (s.settle h c c').trace) n id := by
    intro g n id hasked
    rw [htrace, logOf_append]
    exact hasked.mono _
  refine ⟨fun g d hd => ?_, fun g hg => ?_, fun g => ?_, fun g n => ?_, fun p hp id hid => ?_, ?_, ?_⟩
  · by_cases hgh : h = g
    · subst hgh
      obtain rfl : c' = d := by simpa [Endpoint.settle] using hd
      exact ⟨hown, (hclosed h).not.mpr hentered.isOpen, htidy, hready⟩
    · have hd' : s.connections[g]? = some d := by
        simpa [Endpoint.settle, Std.ExtTreeMap.getElem?_insert, hgh] using hd
      obtain ⟨hl, ho, ht, hr⟩ := b.entered g d hd'
      exact ⟨(hoth g hgh).trans hl, (hclosed g).not.mpr ho, ht, hr⟩
  · obtain ⟨hnone, hnil, hopen⟩ := b.unknown g ((haccepted g).not.mp hg)
    have hgh : h ≠ g := by
      rintro rfl
      simp [hc] at hnone
    exact ⟨by simpa [Endpoint.settle, Std.ExtTreeMap.getElem?_insert, hgh] using hnone, (hoth g hgh).trans hnil,
      (hclosed g).not.mpr hopen⟩
  · by_cases hgh : h = g
    · subst hgh
      exact ⟨_, hown ▸ htidy⟩
    · rw [hoth g hgh]
      exact b.history g
  · have hpend : (s.settle h c c').pending = s.pending ++ new.filterMap (Pending.of? h) := by rw [Endpoint.settle, hnew]
    rw [hpend, countP_append, countP_pendings]
    by_cases hgh : h = g
    · subst hgh
      have hans := hanswers n
      rw [htrace, logOf_append, logOf_on, countP_append, countP_append, if_pos rfl]
      omega
    · have hacc := b.accounts g n
      rw [hoth g hgh, if_neg hgh]
      omega
  · have hpend : (s.settle h c c').pending = s.pending ++ new.filterMap (Pending.of? h) := by rw [Endpoint.settle, hnew]
    rw [hpend] at hp
    rcases mem_append.mp hp with hp | hp
    · exact hmono (b.due p hp id hid)
    · obtain ⟨rfl, hmem⟩ := pending_of_mem hp
      rw [hid] at hmem
      obtain ⟨front, back, rfl⟩ := append_of_mem hmem
      -- the request is before the call of the service in the log
      have hjust := htidy.justified (c.state.log ++ front) _ back (by rw [hlog, append_assoc])
      have hasked : Asked (c.state.log ++ front) p.number id := hjust
      rw [hown, hlog]
      have hlonger := hasked.mono (.dispatch p.number (some id) p.svc p.function p.body :: back)
      rwa [append_assoc] at hlonger
  · rw [htrace, bindings_on, ← b.users, Endpoint.settle, hnew]
  · rw [htrace]
    refine b.routed.append fun front a back hsplit => ?_
    obtain ⟨front', rest, rfl, rfl, hrest⟩ := map_eq_append_iff.mp hsplit
    obtain ⟨e, back', rfl, rfl, -⟩ := map_eq_cons_iff.mp hrest
    exact hrouted front' e back' rfl

/-- New data. -/
theorem receive (b : Books s) (hc : s.connections[h]? = some c) (chunk : Bytes) (stale : List Bytes) :
    Books (s.settle h c (receive cfg c chunk stale)) := by
  have hentered := b.entered h c hc
  obtain ⟨htidy, hready, new, hlog, hinner⟩ := Onwards.receive cfg hentered.tidy hentered.ready chunk stale
  refine b.settle hc new hlog htidy hready (fun n => ?_) (fun front e back hsplit => ?_)
  · have hnone : new.countP (Effect.replies n) = 0 := by
      rw [countP_eq_zero]
      intro e he
      have hin := hinner e he
      unfold Effect.replies
      unfold Effect.isInner at hin
      split <;> simp_all
    have hacc := b.accounts h n
    omega
  · have hin := hinner e (by simp [hsplit])
    unfold Routed
    unfold Effect.isInner at hin
    split <;> simp_all

/-- **A frame is written from outside a session.** -/
theorem writeFrame (b : Books s) {cause} (frame : Bytes) (hrefusal : ∀ n, cause ≠ .refusal n)
    (hjust : ∀ c, s.connections[h]? = some c → Justified (.write cause (c.state.wrap frame)) c.state.log)
    (hanswers : ∀ n, (logOf h s.trace).countP (Effect.replies n) + (if cause = .reply n then 1 else 0)
      + s.pending.countP (Pending.isFor h n) ≤ (logOf h s.trace).countP (Effect.dispatches n))
    (hrouted : ∀ bytes, s.connections[h]? ≠ none → Routed (.on h (.write cause bytes)) s.trace) :
    Books (s.writeFrame h cause frame) := by
  unfold Endpoint.writeFrame
  split
  · exact b
  · rename_i c hc
    have hentered := b.entered h c hc
    have hwritten : c.state.written cause frame = [] ∨
        c.state.written cause frame = [.write cause (c.state.wrap frame)] := by
      unfold Session.written
      split
      · exact .inl rfl
      · exact .inr rfl
    have hnum : (Effect.write cause (c.state.wrap frame)).number? = none := by
      cases cause with
      | refusal n => exact absurd rfl (hrefusal n)
      | protocol | reply n | push uid | broadcast => rfl
    have heq : c.state.writeFrame cause frame = c.state.adds (c.state.written cause frame) := c.state.writeFrame_adds _ _
    refine b.settle hc (c.state.written cause frame) (by rw [heq]; rfl) ?_ ?_ (fun n => ?_) ?_
    · rw [heq]
      refine hentered.tidy.quiet fun e he => ?_
      rcases hwritten with hw | hw
      · simp [hw] at he
      · obtain rfl : e = _ := by simpa [hw] using he
        exact ⟨hnum, hjust c hc⟩
    · rw [heq]
      exact fun hr => mem_append_left _ (hentered.ready hr)
    · have hcount : (c.state.written cause frame).countP (Effect.replies n) ≤ if cause = .reply n then 1 else 0 := by
        rcases hwritten with hw | hw
        · simp [hw]
        · rw [hw, countP_singleton]
          cases cause <;> simp [Effect.replies]
      have hans := hanswers n
      omega
    · intro front e back hsplit
      rcases hwritten with hw | hw
      · simp [hw] at hsplit
      · obtain ⟨rfl, rfl, -⟩ : front = [] ∧ e = .write cause (c.state.wrap frame) ∧ back = [] := by
          rw [hw] at hsplit
          cases front with
          | nil =>
            obtain ⟨rfl, rfl⟩ := List.cons.inj hsplit
            exact ⟨rfl, rfl, rfl⟩
          | cons x front => simp at hsplit
        simpa using hrouted _ (by simp [hc])

/-- An answer comes in. -/
lemma respond (b : Books s) {i} (hp : s.pending[i]? = some p) (text : Bytes) :
    Books ({ s with pending := s.pending.eraseIdx i }.respond p text) := by
  have hfewer : Books { s with pending := s.pending.eraseIdx i } := b.fewer (List.eraseIdx_sublist _ _)
  unfold Endpoint.respond
  split
  · rename_i id hid
    obtain ⟨hi, hget⟩ := List.getElem?_eq_some_iff.mp hp
    have hmem : p ∈ s.pending := hget ▸ List.getElem_mem hi
    have hasked := b.due p hmem id hid
    refine hfewer.writeFrame _ (by simp) (fun c hc => ?_) (fun n => ?_) (fun _ _ => trivial)
    · intro n hn
      obtain rfl : p.number = n := by simpa [Cause.request?] using hn
      refine ⟨id, ?_, Onwards.isResponse_wrap _ _ _⟩
      rw [← (b.entered p.handle c hc).log]
      exact hasked
    · -- the request that is answered is no longer counted as due
      have hperm : s.pending.countP (Pending.isFor p.handle n)
          = (s.pending.eraseIdx i).countP (Pending.isFor p.handle n) + if p.number = n then 1 else 0 := by
        rw [← (List.getElem_cons_eraseIdx_perm hi).countP_eq, List.countP_cons, hget]
        simp [Pending.isFor]
      have hacc := b.accounts p.handle n
      simp only [Cause.reply.injEq]
      omega
  · exact hfewer

/-- The service was found, and is called; there is an answer to wait for unless it was a notification. -/
lemma found (b : Books s) {i} (hp : s.pending[i]? = some p) :
    Books (onResolved { s with pending := s.pending.eraseIdx i } p .found) := by
  obtain ⟨hi, hget⟩ := List.getElem?_eq_some_iff.mp hp
  have hmem : p ∈ s.pending := hget ▸ List.getElem_mem hi
  have hlog : ∀ g, logOf g (s.trace ++ [.envelope p.handle p.number p.svc p.function p.body]) = logOf g s.trace := by
    simp [logOf, Action.effect?]
  refine ⟨fun g d hd => ?_, fun g hg => ?_, fun g => ?_, fun g n => ?_, fun q hq id hid => ?_, ?_,
    b.routed.snoc trivial⟩
  · obtain ⟨hl, ho, ht, hr⟩ := b.entered g d hd
    exact ⟨(hlog g).trans hl, by simpa [onResolved] using ho, ht, hr⟩
  · obtain ⟨hnone, hnil, hopen⟩ := b.unknown g (by simpa [onResolved] using hg)
    exact ⟨hnone, (hlog g).trans hnil, by simpa [onResolved] using hopen⟩
  · simp only [onResolved, hlog]
    exact b.history g
  · -- the request is as due as before
    have hcount : (if p.id.isSome then [{ p with calling := true }] else []).countP (Pending.isFor g n)
        ≤ if p.isFor g n then 1 else 0 := by
      split
      · rw [List.countP_singleton]
        rfl
      · simp
    have hperm : s.pending.countP (Pending.isFor g n)
        = (s.pending.eraseIdx i).countP (Pending.isFor g n) + if p.isFor g n then 1 else 0 := by
      rw [← (List.getElem_cons_eraseIdx_perm hi).countP_eq, List.countP_cons, hget]
    have hacc := b.accounts g n
    simp only [onResolved, hlog, List.countP_append]
    omega
  · simp only [onResolved, hlog]
    rcases List.mem_append.mp hq with hq | hq
    · exact b.due q ((List.eraseIdx_sublist _ _).subset hq) id hid
    · split at hq
      · obtain rfl : q = _ := by simpa using hq
        exact b.due p hmem id hid
      · simp at hq
  · simp only [onResolved, bindings_snoc]
    exact b.users

/-- A push for all. -/
lemma broadcast (frame : Bytes) : ∀ (hs : List Handle) {s : Endpoint}, Books s →
    (∀ h ∈ hs, ∃ c, s.connections[h]? = some c ∧ c.state.ready = some true) →
    Books (hs.foldl (fun s h => s.writeFrame h .broadcast frame) s) := by
  intro hs
  induction hs with
  | nil => exact fun b _ => b
  | cons h hs ih =>
    intro s b hall
    obtain ⟨c, hc, hready⟩ := hall h (by simp)
    have hentered := b.entered h c hc
    refine ih (b.writeFrame frame (by simp) (fun _ _ n hn => by simp [Cause.request?] at hn) (fun n => ?_)
      (fun _ _ => ⟨?_, hentered.isOpen⟩)) (fun g hg => ?_)
    · simpa using b.accounts h n
    · refine on_mem_of_mem_logOf ?_
      rw [hentered.log]
      exact hentered.ready hready
    · -- the others stay ready
      obtain ⟨d, hd, hr⟩ := hall g (by simp [hg])
      simp only [Endpoint.writeFrame, hc]
      by_cases hgh : h = g
      · subst hgh
        obtain rfl : c = d := by simpa [hc] using hd
        refine ⟨{ c with state := c.state.writeFrame .broadcast frame }, by simp [Endpoint.settle], ?_⟩
        rw [Session.writeFrame_adds]
        exact hr
      · exact ⟨d, by simpa [Endpoint.settle, Std.ExtTreeMap.getElem?_insert, hgh] using hd, hr⟩

lemma push (b : Books s) (function payload : Bytes) : Books (onPush cfg s function payload) := by
  unfold onPush
  split
  · exact b
  · dsimp only
    split
    · refine broadcast _ _ b fun h hh => ?_
      obtain ⟨x, hx, rfl⟩ := mem_map.mp hh
      obtain ⟨hmem, hready⟩ := mem_filter.mp hx
      exact ⟨x.2, mem_toList_iff_getElem?_eq_some.mp hmem, by simpa using hready⟩
    · split
      · exact b
      · rename_i h hbound
        refine b.writeFrame _ (by simp) (fun _ _ n hn => by simp [Cause.request?] at hn) (fun n => ?_) (fun _ _ => ?_)
        · simpa using b.accounts h n
        · show (bindings s.trace)[_]? = some h
          rw [← b.users]
          exact hbound

/-- A new connection. -/
lemma accept (b : Books s) (hanew : Action.accepted h ∉ s.trace) :
    Books { s with connections := s.connections.insert h fresh, trace := s.trace ++ [.accepted h] } := by
  obtain ⟨-, hnil, hopen⟩ := b.unknown h hanew
  have hlog : ∀ g, logOf g (s.trace ++ [.accepted h]) = logOf g s.trace := by simp [logOf, Action.effect?]
  refine ⟨fun g d hd => ?_, fun g hg => ?_, fun g => ?_, fun g n => ?_, fun p hp id hid => ?_, ?_,
    b.routed.snoc trivial⟩
  · by_cases hgh : h = g
    · subst hgh
      obtain rfl : fresh = d := by simpa using hd
      exact ⟨(hlog h).trans hnil, by simpa using hopen, Tidy.nil, by simp [fresh]⟩
    · have hd' : s.connections[g]? = some d := by simpa [Std.ExtTreeMap.getElem?_insert, hgh] using hd
      obtain ⟨hl, ho, ht, hr⟩ := b.entered g d hd'
      exact ⟨(hlog g).trans hl, by simpa using ho, ht, hr⟩
  · obtain ⟨hg, hgh⟩ : Action.accepted g ∉ s.trace ∧ g ≠ h := by simpa [not_or] using hg
    obtain ⟨hnone, hnil', hopen'⟩ := b.unknown g hg
    exact ⟨by simpa [Std.ExtTreeMap.getElem?_insert, hgh.symm] using hnone, (hlog g).trans hnil', by simpa using hopen'⟩
  · rw [hlog]
    exact b.history g
  · rw [hlog]
    exact b.accounts g n
  · rw [hlog]
    exact b.due p hp id hid
  · rw [bindings_snoc]
    exact b.users

/-- A connection is closed. -/
lemma close (b : Books s) (hmem : h ∈ s.connections) :
    Books { s with
      connections := s.connections.erase h
      uidMap := s.uidMap.filter fun _ bound => bound ≠ h
      trace := s.trace ++ [.closed h] } := by
  have hlog : ∀ g, logOf g (s.trace ++ [.closed h]) = logOf g s.trace := by simp [logOf, Action.effect?]
  refine ⟨fun g d hd => ?_, fun g hg => ?_, fun g => ?_, fun g n => ?_, fun p hp id hid => ?_, ?_,
    b.routed.snoc trivial⟩
  · rw [getElem?_erase] at hd
    split at hd
    · simp at hd
    · rename_i hne
      obtain ⟨hl, ho, ht, hr⟩ := b.entered g d hd
      have hgh : g ≠ h := by
        rintro rfl
        exact hne Std.ReflCmp.compare_self
      exact ⟨(hlog g).trans hl, by simpa [not_or] using ⟨ho, hgh⟩, ht, hr⟩
  · have hg' : Action.accepted g ∉ s.trace := by simpa using hg
    obtain ⟨hnone, hnil, hopen⟩ := b.unknown g hg'
    have hgh : g ≠ h := by
      rintro rfl
      rw [mem_iff_isSome_getElem?, hnone] at hmem
      simp at hmem
    refine ⟨?_, (hlog g).trans hnil, by simpa [not_or] using ⟨hopen, hgh⟩⟩
    rw [getElem?_erase, hnone]
    simp
  · rw [hlog]
    exact b.history g
  · rw [hlog]
    exact b.accounts g n
  · rw [hlog]
    exact b.due p hp id hid
  · rw [bindings_snoc, ← b.users]
    rfl

/-- **One event keeps the books.** -/
theorem step (b : Books s) {e} (hanew : Anew s e) (hstep : step cfg s e = some s') : Books s' := by
  cases e with
  | accepted h =>
    simp only [Pomelo.step] at hstep
    split at hstep
    · simp at hstep
    · obtain rfl := some.inj hstep
      exact b.accept hanew
  | data h chunk stale =>
    obtain ⟨c, hc, rfl⟩ := map_eq_some_iff.mp hstep
    exact b.receive hc chunk stale
  | closed h =>
    simp only [Pomelo.step] at hstep
    split at hstep
    · rename_i hmem
      obtain rfl := some.inj hstep
      exact b.close hmem
    · simp at hstep
  | resolved i r =>
    simp only [Pomelo.step] at hstep
    split at hstep
    · rename_i p hp
      split at hstep
      · simp at hstep
      · obtain rfl := some.inj hstep
        cases r with
        | found => exact b.found hp
        | missing => exact b.respond hp _
        | failed text => exact b.respond hp text
    · simp at hstep
  | replied i text =>
    simp only [Pomelo.step] at hstep
    split at hstep
    · rename_i p hp
      split at hstep
      · obtain rfl := some.inj hstep
        exact b.respond hp text
      · simp at hstep
    · simp at hstep
  | push function payload =>
    obtain rfl := some.inj hstep
    exact b.push function payload

/-- Answers are refusals and replies. -/
lemma countP_answers (n : ℕ) (log : List Effect) :
    log.countP (Effect.answers n) = log.countP (Effect.refuses n) + log.countP (Effect.replies n) := by
  induction log with
  | nil => rfl
  | cons e log ih =>
    have he : (if e.answers n then 1 else 0) = (if e.refuses n then 1 else 0) + if e.replies n then 1 else 0 := by
      cases e with
      | write cause bytes => cases cause <;> simp [Effect.answers, Effect.refuses, Effect.replies, Cause.request?]
      | package m pkg | bind uid | acknowledge | mark | dangling
      | dispatch m id svc function body => rfl
    rw [countP_cons, countP_cons, countP_cons, ih, he]
    omega

theorem delivered (b : Books s) : Delivery s.trace where
  single := by
    intro h n
    obtain ⟨served, htidy⟩ := b.history h
    exact htidy.single n
  once := by
    intro h n
    obtain ⟨served, htidy⟩ := b.history h
    have honce := htidy.once n
    have hacc := b.accounts h n
    rw [countP_answers]
    omega
  own := by
    rintro front back h cause bytes n hsplit hn
    obtain ⟨served, htidy⟩ := b.history h
    refine htidy.justified (logOf h front) (.write cause bytes) (logOf h back) ?_ n hn
    rw [hsplit, logOf_append]
    simp [logOf, Action.effect?]
  bound := fun front back h uid bytes hsplit => mostRecent_of_bindings (b.routed front _ back hsplit)
  acknowledged := by
    rintro front back h bytes hsplit
    obtain ⟨hmem, hopen⟩ := b.routed front _ back hsplit
    obtain ⟨a, b, rfl⟩ := append_of_mem hmem
    exact ⟨a, b, rfl, fun hclosed => hopen (by simp [hclosed])⟩

end Books

/-- **Everything goes where it belongs**, in every run in which handles are not used again. -/
theorem delivery {cfg : Config} {es : List Event} {s : Endpoint} (hanew : Machine.RunWhere (step cfg) Anew {} es)
    (hrun : Machine.run (step cfg) {} es = some s) : Delivery s.trace :=
  (Machine.run_invariant_where (I := Books) (fun _ _ _ b h hstep => b.step h hstep) Books.start hanew hrun).delivered

namespace Sample

/-- One route, and a JSON parser that knows one handshake and one push. -/
def playing : Config where
  routes := (∅ : StringMap Bytes).insert (str "r") (str "svc:f")
  json := fun text =>
    if text = str "hello" then some (.object [(str "user", .object [(str "uid", .text (str "u"))])])
    else if text = str "go" then some (.object [(str "uid", .text (str "u")), (str "body", .text (str "b"))])
    else none

/-- A user connects and asks for a service; then there is a push for the user and one for all. -/
def game : List Event :=
  [.accepted 0, .accepted 1, .data 0 (encodePkg pkgHandshake (str "hello")) [],
    .data 0 (encodePkg pkgHandshakeAck []) [], .data 0 (encodePkg pkgData (encodeMsg 1 msgRequest (str "r") (str "x"))) [],
    .resolved 0 .found, .push (str "p") (str "go"), .replied 0 (str "y"), .push (str "p") (str "all"), .closed 0]

def played : Endpoint := (Machine.run (step playing) {} game).get (by decide +kernel)

end Sample

theorem delivery_played : Delivery Sample.played.trace ∧
    (logOf 0 Sample.played.trace).countP (Effect.answers 2) = 1 ∧
    (.on 0 (.write (.push (str "u")) (pushFrame (str "p") (str "b")))) ∈ Sample.played.trace ∧
    (.on 0 (.write .broadcast (pushFrame (str "p") (str "all")))) ∈ Sample.played.trace :=
  ⟨delivery (by decide +kernel) (some_get _).symm, by decide +kernel, by decide +kernel, by decide +kernel⟩

end Caf.Pomelo
