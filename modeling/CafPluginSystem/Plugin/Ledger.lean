import CafPluginSystem.Plugin.Reach
import CafPluginSystem.Plugin.Table

/-!
# A sequential account of the manager's surroundings

What the handlers of the manager can rely on, whatever happens in the background: the settled table of services, what
they have learnt about proxies, and what the replies to their requests can be.  The registry answers a question by the
table at the time it was asked, and a proxy that acknowledges a pause has handled everything it was sent before, since
both handle their messages in their order.

* `Ledger` — the state of the account; `account` — what may be performed and what follows from it.
* `Keeps` — the world is as the ledger has it.
* `keeps_background`, `keeps_perform` — the background does not show in the ledger, and every operation does what the
  account says; so `account_tracks`.

The account can be kept strictly: then an operation may only send a message on a plugin's account to a service that
is registered for this plugin, and in the world no service is ever touched on account of another plugin.
-/

namespace Caf.Plugin

open EntityStore Service Interaction List Function Option StringMap

variable {request : ℕ} {ok : (e : Op) → e.Reply → Prop}

/-- A request that was sent: for the proxy of a service, which is registered for this plugin or not at all; for a pause
of a proxy; for the state of an actor.  It is stale when what it was about has changed since. -/
inductive Question where
  | service (service : Bytes) (plugin : Option Bytes)
  | pause (proxy : Address)
  | state
  | stale

namespace Question

/-- Once another message was sent to the registry. -/
def told (msg : RegistryMsg) : Question → Question
  | .service svc plugin => if msg = .unregister svc then .stale else .service svc plugin
  | .pause proxy => .pause proxy
  | .state => .state
  | .stale => .stale

/-- Once a proxy was sent another implementation. -/
def resumed (proxy : Address) : Question → Question
  | .pause p => if p = proxy then .stale else .pause p
  | .service svc plugin => .service svc plugin
  | .state => .state
  | .stale => .stale

end Question

/-- The settled table; the plugin and the service of the proxies of which they are known; the proxies that are known to
be paused; the requests by their numbers; and a number below which the addresses of actors are taken. -/
structure Ledger where
  table : Table
  owner : Address → Option Bytes := fun _ => none
  home : Address → Option Bytes := fun _ => none
  held : Address → Bool := fun _ => false
  asked : ℕ → Option Question := fun _ => none
  next : ℕ := 0

namespace Ledger

def ask (L : Ledger) (request : ℕ) (q : Question) : Ledger :=
  { L with asked := Function.update L.asked request (some q) }

def learn (L : Ledger) (proxy : Address) (service plugin : Bytes) : Ledger :=
  { L with
    owner := Function.update L.owner proxy (some plugin)
    home := Function.update L.home proxy (some service) }

def hold (L : Ledger) (proxy : Address) : Ledger := { L with held := Function.update L.held proxy true }

def spawn (L : Ledger) (actor : Address) : Ledger := { L with next := actor.id + 1 }

/-- A message to the registry. -/
def tell (L : Ledger) (msg : RegistryMsg) : Ledger :=
  { L with
    table := L.table.apply msg
    home := fun p => (L.home p).filter fun service => msg ≠ .unregister service
    asked := fun r => (L.asked r).map (.told msg) }

/-- The table when the proxy of a service was sent a message. -/
def signal (L : Ledger) (proxy : Address) (f : Standing → Standing) : Table :=
  match L.home proxy with
  | some service => L.table.change service (Option.map f)
  | none => L.table

def quiesce (L : Ledger) (request : ℕ) (proxy : Address) : Ledger :=
  { L.ask request (.pause proxy) with table := L.signal proxy .pause }

def resume (L : Ledger) (proxy target : Address) : Ledger :=
  { L with
    table := L.signal proxy (·.resume target)
    held := Function.update L.held proxy false
    asked := fun r => (L.asked r).map (.resumed proxy) }

lemma ask_asked {L : Ledger} {r : ℕ} {q q' : Question} (hnew : L.asked request = none)
    (h : L.asked r = some q') : (L.ask request q).asked r = some q' := by
  have hne : r ≠ request := by
    rintro rfl
    simp [hnew] at h
  exact (update_of_ne hne _ _).trans h

/-- A question changes nothing in the registry. -/
lemma tell_resolve (L : Ledger) (r : ℕ) (service : Bytes) : L.tell (.resolve r service) = L := by
  have hquestion : ∀ q : Question, q.told (.resolve r service) = q := by
    intro q
    cases q with
    | service svc plugin => simp [Question.told]
    | _ => rfl
  have hhome : ∀ p, (L.home p).filter (fun s => RegistryMsg.resolve r service ≠ .unregister s) = L.home p := by
    intro p
    cases L.home p <;> simp
  unfold tell
  simp only [Table.resolve_apply, hhome, funext hquestion]
  simp

end Ledger

/-- A message on the account of a plugin is about a service that is registered for it, or not registered. -/
def Safe (t : Table) (origin : Bytes) : RegistryMsg → Prop
  | .hotReload service _ => ∀ st, t service = some st → st.plugin = origin
  | .unregister service => ∀ st, t service = some st → st.plugin = origin
  | .setServiceAcl service _ => ∀ st, t service = some st → st.plugin = origin
  | .register _ _ _ => True
  | .resolve _ _ => True

/-- What may be performed.  Questions to the registry go through `Op.resolve`. -/
def Ledger.may (strict : Prop) : Op → Ledger → Prop
  | .tellRegistry origin msg, L => (∀ r service, msg ≠ .resolve r service) ∧
      (∀ a, msg.Names a → a.id < L.next) ∧ (strict → Safe L.table origin msg)
  | .quiesce origin proxy, L => L.home proxy ≠ none ∧ (strict → L.owner proxy = some origin)
  | .resume origin proxy target, L =>
    L.home proxy ≠ none ∧ target.id < L.next ∧ (strict → L.owner proxy = some origin)
  | _, _ => True

/-- What a reply tells about the question. -/
def Ledger.replied (L : Ledger) (request : ℕ) : Option Answer → Ledger → Prop
  | none, L' => L = L'
  | some a, L' =>
    match L.asked request, a with
    | some (.service _ none), .handle none => L = L'
    | some (.service service (some plugin)), .handle (some proxy) =>
      (∀ o, L.owner proxy = some o → o = plugin) ∧ (∀ s, L.home proxy = some s → s = service) ∧
        L' = L.learn proxy service plugin
    | some (.pause proxy), .flag b => b = true ∧ L' = L.hold proxy
    | some .state, .data _ => L = L'
    | some .stale, _ => L = L'
    | _, _ => False

/-- What follows from an operation, among the replies that `ok` admits. -/
def Ledger.does (ok : (e : Op) → e.Reply → Prop) : (e : Op) → Ledger → e.Reply → Ledger → Prop
  | .tellRegistry _ msg, L, _, L' => L' = L.tell msg
  | .resolve _ service, L, r, L' =>
    L.asked r = none ∧ L' = L.ask r (.service service ((L.table service).map Standing.plugin))
  | .quiesce _ proxy, L, r, L' => L.asked r = none ∧ L' = L.quiesce r proxy
  | .saveState _, L, r, L' => L.asked r = none ∧ L' = L.ask r .state
  | .receive kind request, L, reply, L' => ok (.receive kind request) reply ∧ L.replied request reply L'
  | .spawn _ _, L, actor, L' => L.next ≤ actor.id ∧ L' = L.spawn actor
  | .resume _ proxy target, L, _, L' => L' = L.resume proxy target
  | .openLibrary path, L, lib, L' => ok (.openLibrary path) lib ∧ L = L'
  | .create, L, _, L' => L = L'
  | .destroy _, L, _, L' => L = L'
  | .restoreState _, L, _, L' => L = L'
  | .monitor _, L, _, L' => L = L'
  | .tell _ _, L, _, L' => L = L'

def account (strict : Prop) (ok : (e : Op) → e.Reply → Prop) : Account Op Op.Reply Ledger where
  may := Ledger.may strict
  does := Ledger.does ok

/-- The proxy is paused and nothing in its mailbox changes that. -/
structure ProxyCell.Halted {μ : Type} (cell : ProxyCell μ) : Prop where
  paused : cell.state.paused = true
  mail : ∀ letter ∈ cell.mail, ∀ target, letter.msg ≠ .resume target

namespace World

variable {μ : Type} {strict : Prop} {L : Ledger} {w w' : World μ}
variable {cell : ProxyCell μ} {owner service : Bytes} {msg : RegistryMsg}
  {rest : List (Bytes × RegistryMsg)} {asked' : ℕ → Option Question} {a target : Address}

/-! ## The world as the ledger has it -/

def OwnedBy (w : World μ) (p : Address) (plugin : Bytes) : Prop :=
  ∃ cell, w.proxies p = some cell ∧ cell.owner = plugin

/-- The proxy of a service that is registered and not about to be unregistered. -/
structure HomeOf (w : World μ) (p : Address) (service : Bytes) : Prop where
  entry : ∃ e : VersionedEntry, w.services[service]? = some e ∧ e.proxy = p
  stays : ∀ m ∈ w.registryMail, m.2 ≠ .unregister service

def Halted (w : World μ) (p : Address) : Prop := ∃ cell, w.proxies p = some cell ∧ cell.Halted

/-- What is known of proxies stays so. -/
structure Onward (w w' : World μ) : Prop where
  owned : ∀ p plugin, w.OwnedBy p plugin → w'.OwnedBy p plugin
  home : ∀ p service, w.HomeOf p service → w'.HomeOf p service
  halted : ∀ p, w.Halted p → w'.Halted p

/-- An answer that fits the question. -/
def Fits (w : World μ) : Question → Answer → Prop
  | .service _ none, .handle none => True
  | .service service (some plugin), .handle (some p) => w.OwnedBy p plugin ∧ w.HomeOf p service
  | .pause p, .flag b => b = true ∧ w.Halted p
  | .state, .data _ => True
  | .stale, _ => True
  | _, _ => False

/-- A message in the mailbox of a proxy, with others behind it: a request is for a pause, which the others leave alone
unless it is stale; and what does something to the service is on account of its owner. -/
structure LetterOk (strict : Prop) (asked : ℕ → Option Question) (p : Address) (owner : Bytes)
    (rest : List (ProxyLetter μ)) (letter : ProxyLetter μ) : Prop where
  request : ∀ r, letter.request = some r → letter.msg = .quiesce ∧
    (asked r = some .stale ∨ asked r = some (.pause p) ∧ ∀ l ∈ rest, ∀ target, l.msg ≠ .resume target)
  origin : strict → ∀ o, letter.origin = some o → (actOf letter.msg).isSome → o = owner

/-- So it is along its whole mailbox. -/
def LettersOk (strict : Prop) (asked : ℕ → Option Question) (p : Address) (owner : Bytes) :
    List (ProxyLetter μ) → Prop
  | [] => True
  | letter :: rest => LetterOk strict asked p owner rest letter ∧ LettersOk strict asked p owner rest

/-- The registry takes up a message that it finds with this table, with others behind it: a question is answered as
the ledger has it, and any other message is safe. -/
def TakesUp (strict : Prop) (asked : ℕ → Option Question) (t : Table) (origin : Bytes)
    (rest : List (Bytes × RegistryMsg)) : RegistryMsg → Prop
  | .resolve r service => asked r = some .stale ∨
      asked r = some (.service service ((t service).map Standing.plugin)) ∧ ∀ m ∈ rest, m.2 ≠ .unregister service
  | msg => strict → Safe t origin msg

/-- So it is along its whole mailbox. -/
def MailOk (strict : Prop) (asked : ℕ → Option Question) : Table → List (Bytes × RegistryMsg) → Prop
  | _, [] => True
  | t, (origin, msg) :: rest => TakesUp strict asked t origin rest msg ∧ MailOk strict asked (t.apply msg) rest

/-- The proxies, the mailboxes and the answers are as the ledger has them. -/
structure Boxes (strict : Prop) (L : Ledger) (w : World μ) : Prop where
  owners : ∀ p plugin, L.owner p = some plugin → w.OwnedBy p plugin
  homes : ∀ p service, L.home p = some service → w.HomeOf p service
  holds : ∀ p, L.held p = true → w.Halted p
  letters : ∀ p cell, w.proxies p = some cell → LettersOk strict L.asked p cell.owner cell.mail
  states : ∀ a cell r, w.actors a = some cell → .saveState r ∈ cell.received → L.asked r = some .state
  answered : ∀ r a, w.answers r = some a → ∃ q, L.asked r = some q ∧ w.Fits q a
  touched : strict → ∀ x ∈ w.touched, x.origin = x.owner

/-- The world is as the ledger has it. -/
structure Keeps (strict : Prop) (w : World μ) (L : Ledger) : Prop where
  sane : w.Sane
  table : w.settle = L.table
  fresh : ∀ r, w.next ≤ r → L.asked r = none
  named : ∀ a, w.Names a → a.id < w.next
  next : L.next ≤ w.next
  mail : MailOk strict L.asked w.registered w.registryMail
  boxes : w.Boxes strict L

/-! ## What is known stays known -/

namespace Onward

lemma of_home (hp : w'.proxies = w.proxies) (hhome : ∀ p service, w.HomeOf p service → w'.HomeOf p service) :
    Onward w w' := by
  refine ⟨?_, hhome, ?_⟩
  · rintro p plugin ⟨cell, hc, ho⟩
    exact ⟨cell, hp ▸ hc, ho⟩
  · rintro p ⟨cell, hc, hhalted⟩
    exact ⟨cell, hp ▸ hc, hhalted⟩

lemma of_eq (hs : w'.services = w.services) (hm : w'.registryMail = w.registryMail)
    (hp : w'.proxies = w.proxies) : Onward w w' := by
  refine of_home hp ?_
  rintro p service ⟨⟨e, he, hpe⟩, hstays⟩
  exact ⟨⟨e, hs ▸ he, hpe⟩, hm ▸ hstays⟩

/-- Another proxy in one place. -/
lemma setProxy {p} (howner : ∀ old, w.proxies p = some old → cell.owner = old.owner)
    (hhalted : ∀ old, w.proxies p = some old → old.Halted → cell.Halted) : Onward w (w.setProxy p cell) := by
  refine ⟨?_, fun q service h => ⟨h.entry, h.stays⟩, ?_⟩
  · rintro q plugin ⟨old, hq, ho⟩
    by_cases hqp : q = p
    · subst hqp
      exact ⟨cell, setProxy_same w q cell, (howner old hq).trans ho⟩
    · exact ⟨old, (setProxy_other hqp cell).trans hq, ho⟩
  · rintro q ⟨old, hq, ho⟩
    by_cases hqp : q = p
    · subst hqp
      exact ⟨cell, setProxy_same w q cell, hhalted old hq ho⟩
    · exact ⟨old, (setProxy_other hqp cell).trans hq, ho⟩

end Onward

lemma Fits.mono (h : Onward w w') : ∀ {q : Question} {a : Answer}, w.Fits q a → w'.Fits q a
  | .service _ none, .handle none, hf => hf
  | .service _ (some _), .handle (some _), hf => ⟨h.owned _ _ hf.1, h.home _ _ hf.2⟩
  | .pause _, .flag _, hf => ⟨hf.1, h.halted _ hf.2⟩
  | .state, .data _, _ => trivial
  | .stale, _, _ => trivial

/-! ## Small changes of the mailboxes -/

namespace Boxes

section

variable (h : w.Boxes strict L)
include h

/-- Nothing changed but the registrations, and those that are known stay. -/
lemma shift (hp : w'.proxies = w.proxies) (ha : w'.actors = w.actors)
    (hans : w'.answers = w.answers) (ht : w'.touched = w.touched)
    (hhome : ∀ p service, w.HomeOf p service → w'.HomeOf p service) : w'.Boxes strict L := by
  have hon : Onward w w' := .of_home hp hhome
  refine ⟨fun p plugin h' => hon.owned p plugin (h.owners p plugin h'), fun p s h' => hon.home p s (h.homes p s h'),
    fun p h' => hon.halted p (h.holds p h'), hp ▸ h.letters, ha ▸ h.states, fun r a h' => ?_, ht ▸ h.touched⟩
  rw [hans] at h'
  exact (h.answered r a h').imp fun q hq => ⟨hq.1, hq.2.mono hon⟩

/-- Another proxy in one place, with a mailbox that is in order. -/
lemma setProxy (p : Address) (cell : ProxyCell μ) (howner : ∀ old, w.proxies p = some old → cell.owner = old.owner)
    (hhalted : ∀ old, w.proxies p = some old → old.Halted → cell.Halted)
    (hmail : LettersOk strict L.asked p cell.owner cell.mail) : (w.setProxy p cell).Boxes strict L := by
  have hon : Onward w (w.setProxy p cell) := .setProxy howner hhalted
  refine ⟨fun q plugin hq => hon.owned q plugin (h.owners q plugin hq), fun q s hq => hon.home q s (h.homes q s hq),
    fun q hq => hon.halted q (h.holds q hq), fun q c hq => ?_, h.states, fun r a ha => ?_, h.touched⟩
  · by_cases hqp : q = p
    · subst hqp
      obtain rfl : cell = c := by simpa [setProxy_same] using hq
      exact hmail
    · rw [setProxy_other hqp] at hq
      exact h.letters q c hq
  · exact (h.answered r a ha).imp fun q hq => ⟨hq.1, hq.2.mono hon⟩

lemma setActor {cell} (hrecv : ∀ r, .saveState r ∈ cell.received → L.asked r = some .state) :
    (w.setActor a cell).Boxes strict L := by
  have hon : Onward w (w.setActor a cell) := .of_eq rfl rfl rfl
  refine ⟨h.owners, fun p s hp => hon.home p s (h.homes p s hp), h.holds, h.letters, fun b c r hb hr => ?_,
    fun r a' ha' => ?_, h.touched⟩
  · by_cases hba : b = a
    · subst hba
      obtain rfl : cell = c := by simpa [World.setActor] using hb
      exact hrecv r hr
    · simp only [World.setActor, update_of_ne hba] at hb
      exact h.states b c r hb hr
  · exact (h.answered r a' ha').imp fun q hq => ⟨hq.1, hq.2.mono hon⟩

lemma toActor {msg} (hmsg : ∀ r, msg = .saveState r → L.asked r = some .state) : (w.toActor a msg).Boxes strict L := by
  unfold World.toActor
  cases ha : w.actors a with
  | none => exact h
  | some cell =>
    refine h.setActor fun r hr => ?_
    rcases mem_append.mp hr with hr | hr
    · exact h.states a cell r ha hr
    · exact hmsg r (mem_singleton.mp hr).symm

lemma answer {a q} (hq : L.asked request = some q) (hf : w.Fits q a) : (w.answer request a).Boxes strict L := by
  have hon : Onward w (w.answer request a) := .of_eq rfl rfl rfl
  refine ⟨h.owners, fun p s hp => hon.home p s (h.homes p s hp), h.holds, h.letters, h.states, fun r b hb => ?_,
    h.touched⟩
  by_cases hr : r = request
  · subst hr
    cases hold : w.answers r with
    | none =>
      obtain rfl : a = b := by simpa [World.answer, hold] using hb
      exact ⟨q, hq, hf.mono hon⟩
    | some b' =>
      obtain rfl : b' = b := by simpa [World.answer, hold] using hb
      exact (h.answered r b' hold).imp fun q hq => ⟨hq.1, hq.2.mono hon⟩
  · simp only [World.answer, update_of_ne hr] at hb
    exact (h.answered r b hb).imp fun q hq => ⟨hq.1, hq.2.mono hon⟩

lemma touch (act : ServiceAct) {origin} (heq : strict → origin = owner) :
    (w.touch act origin owner).Boxes strict L := by
  have hon : Onward w (w.touch act origin owner) := .of_eq rfl rfl rfl
  refine ⟨h.owners, fun p s hp => hon.home p s (h.homes p s hp), h.holds, h.letters, h.states, fun r a ha => ?_,
    fun hst x hx => ?_⟩
  · exact (h.answered r a ha).imp fun q hq => ⟨hq.1, hq.2.mono hon⟩
  · rcases mem_append.mp hx with hx | hx
    · exact h.touched hst x hx
    · rw [mem_singleton.mp hx]
      exact heq hst

lemma noteTouch {letter} (hl : strict → ∀ o, letter.origin = some o → (actOf letter.msg).isSome → o = owner) :
    (w.noteTouch letter owner).Boxes strict L := by
  unfold World.noteTouch
  split
  · rename_i origin act ho ha
    exact h.touch _ fun hst => hl hst origin ho (by rw [ha]; rfl)
  · exact h

end

/-- What a proxy does when it handles a message stays within what the ledger has. -/
lemma carryOut {p request} (effects : List (Effect μ)) : ∀ {w : World μ},
    w.Boxes strict L → (∀ r, request = some r → L.asked r = some .stale ∨ L.asked r = some (.pause p) ∧ w.Halted p) →
    (effects.foldl (carryOut p request) w).Boxes strict L := by
  induction effects with
  | nil => exact fun h _ => h
  | cons e effects ih =>
    intro w h hr
    cases e with
    | forward target call =>
      refine ih (h.toActor fun r hr => by simp at hr) fun r hreq => (hr r hreq).imp_right (And.imp_right ?_)
      rintro ⟨cell, hc, hhalted⟩
      exact ⟨cell, (congrFun (toActor_proxies w target _) p).trans hc, hhalted⟩
    | ack =>
      cases request with
      | none => exact ih h hr
      | some r =>
        refine ih ?_ hr
        rcases hr r rfl with hstale | ⟨hpause, hhalted⟩
        · exact h.answer hstale trivial
        · exact h.answer hpause ⟨rfl, hhalted⟩
    | _ => exact ih h hr

end Boxes

/-! ## Messages for the proxies -/

variable {asked : ℕ → Option Question} {p : Address} {letter : ProxyLetter μ} {origin : Bytes}
  {mail : List (Bytes × RegistryMsg)} {b : Background μ}

/-- A message that gives no implementation leaves the pauses before it alone. -/
lemma lettersOk_append
    (hletter : LetterOk strict asked p owner [] letter) (hmsg : ∀ target, letter.msg ≠ .resume target)
    {mail} (hmail : LettersOk strict asked p owner mail) :
    LettersOk strict asked p owner (mail ++ [letter]) := by
  induction mail with
  | nil => exact ⟨hletter, trivial⟩
  | cons l rest ih =>
    refine ⟨⟨fun r hr => ?_, hmail.1.origin⟩, ih hmail.2⟩
    obtain ⟨hquiesce, hasked⟩ := hmail.1.request r hr
    refine ⟨hquiesce, hasked.imp_right (And.imp_right fun hrest l' hl' => ?_)⟩
    rcases mem_append.mp hl' with hl' | hl'
    · exact hrest l' hl'
    · rw [mem_singleton.mp hl']
      exact hmsg

/-- The questions that were asked change, and those in the mailbox with them. -/
lemma LettersOk.mono (hasked : ∀ r, asked r = some .stale ∨ asked r = some (.pause p) → asked' r = asked r)
    {mail : List (ProxyLetter μ)} (hmail : LettersOk strict asked p owner mail) :
    LettersOk strict asked' p owner mail := by
  induction mail with
  | nil => trivial
  | cons l rest ih =>
    refine ⟨⟨fun r hr => ?_, hmail.1.origin⟩, ih hmail.2⟩
    obtain ⟨hquiesce, hold⟩ := hmail.1.request r hr
    rw [hasked r (hold.imp_right And.left)]
    exact ⟨hquiesce, hold⟩

/-- One more message for a proxy, which gives it no implementation. -/
lemma Boxes.post (h : w.Boxes strict L) (hp : w.proxies p = some cell)
    (hl : LetterOk strict L.asked p cell.owner [] letter)
    (hmsg : ∀ target, letter.msg ≠ .resume target) :
    (w.setProxy p { cell with mail := cell.mail ++ [letter] }).Boxes strict L := by
  refine h.setProxy _ _ (fun old hold => ?_) (fun old hold hhalted => ?_) (lettersOk_append hl hmsg (h.letters p cell hp))
  · rw [hp, some.injEq] at hold
    rw [← hold]
  · rw [hp, some.injEq] at hold
    subst hold
    refine ⟨hhalted.paused, fun l hmem => ?_⟩
    rcases mem_append.mp hmem with hmem | hmem
    · exact hhalted.mail l hmem
    · rw [mem_singleton.mp hmem]
      exact hmsg

/-- A message leaves a pause alone if it gives no implementation. -/
lemma handle_paused {st : ProxyState μ} {msg : ProxyMsg μ} (h : ∀ target, msg ≠ .resume target)
    (hpaused : st.paused = true) : (st.handle localNode msg).1.paused = true := by
  cases msg with
  | client call =>
    show (st.onClient localNode call).1.paused = true
    unfold ProxyState.onClient
    split
    · exact hpaused
    · rw [if_pos hpaused]
      exact hpaused
  | down source =>
    show (st.onDown source).1.paused = true
    unfold ProxyState.onDown
    split <;> exact hpaused
  | setAcl allowed => exact hpaused
  | quiesce => rfl
  | resume target => exact absurd rfl (h target)

/-- A proxy handles a message. -/
lemma boxes_proxyHandles {rest : List (ProxyLetter μ)}
    (h : w.Boxes strict L) (hp : w.proxies p = some cell) (hm : cell.mail = letter :: rest) :
    (w.proxyHandles p cell letter rest).Boxes strict L := by
  have hletters := h.letters p cell hp
  rw [hm] at hletters
  have hset : (w.setProxy p (cell.handled letter.msg rest)).Boxes strict L := by
    refine h.setProxy _ _ (fun old hold => ?_) (fun old hold hhalted => ?_) hletters.2
    · rw [hp, some.injEq] at hold
      rw [← hold]
      rfl
    · rw [hp, some.injEq] at hold
      subst hold
      have hmail := hm ▸ hhalted.mail
      exact ⟨handle_paused (hmail letter mem_cons_self) hhalted.paused,
        fun l hmem => hmail l (mem_cons_of_mem _ hmem)⟩
  refine Boxes.carryOut _ (hset.noteTouch hletters.1.origin) fun r hr => ?_
  obtain ⟨hquiesce, hasked⟩ := hletters.1.request r hr
  refine hasked.imp_right (And.imp_right fun hrest => ⟨cell.handled letter.msg rest, ?_, ?_, hrest⟩)
  · rw [noteTouch_proxies]
    exact setProxy_same w p _
  · rw [hquiesce]
    rfl

/-! ## Messages for the registry -/

lemma mailOk_append {t} (hmail : MailOk strict asked t mail)
    (hmsg : TakesUp strict (fun r => (asked r).map (.told msg)) (t.applyAll mail) origin [] msg) :
    MailOk strict (fun r => (asked r).map (.told msg)) t (mail ++ [(origin, msg)]) := by
  induction mail generalizing t with
  | nil => exact ⟨hmsg, trivial⟩
  | cons letter rest ih =>
    obtain ⟨o, msg'⟩ := letter
    refine ⟨?_, ih hmail.2 hmsg⟩
    have hhead := hmail.1
    cases msg' with
    | resolve r service =>
      rcases hhead with hstale | ⟨hasked, hrest⟩
      · exact .inl (by simp [hstale, Question.told])
      · by_cases hdrop : msg = .unregister service
        · exact .inl (by simp [hasked, Question.told, hdrop])
        · refine .inr ⟨by simp [hasked, Question.told, hdrop], fun m hm => ?_⟩
          rcases mem_append.mp hm with hm | hm
          · exact hrest m hm
          · rw [mem_singleton.mp hm]
            exact hdrop
    | _ => exact hhead

lemma MailOk.mono
    (h : ∀ r, asked r = some .stale ∨ (∃ s plugin, asked r = some (.service s plugin)) → asked' r = asked r)
    {t} (hmail : MailOk strict asked t mail) :
    MailOk strict asked' t mail := by
  induction mail generalizing t with
  | nil => trivial
  | cons letter rest ih =>
    obtain ⟨origin, msg⟩ := letter
    refine ⟨?_, ih hmail.2⟩
    have hhead := hmail.1
    cases msg with
    | resolve r service =>
      show asked' r = _ ∨ asked' r = _ ∧ _
      rw [h r (hhead.imp_right fun hs => ⟨_, _, hs.1⟩)]
      exact hhead
    | _ => exact hhead

/-- What the registry takes up depends on the plugins in its table only. -/
lemma MailOk.congr : ∀ {t t' : Table},
    (∀ service, (t' service).map Standing.plugin = (t service).map Standing.plugin) → MailOk strict asked t mail →
    MailOk strict asked t' mail := by
  induction mail with
  | nil => exact fun _ _ => trivial
  | cons letter rest ih =>
    intro t t' ht hmail
    obtain ⟨origin, msg⟩ := letter
    refine ⟨?_, ih (Table.apply_plugins ht msg) hmail.2⟩
    have hsafe : ∀ service, (∀ st, t service = some st → st.plugin = origin) →
        ∀ st, t' service = some st → st.plugin = origin := by
      intro service hold st hst
      have hplug := ht service
      rw [hst, map_some] at hplug
      obtain ⟨st', hst', hst''⟩ := map_eq_some_iff.mp hplug.symm
      exact hst''.symm.trans (hold st' hst')
    have hhead := hmail.1
    cases msg with
    | resolve r service =>
      show asked r = _ ∨ asked r = some (.service service ((t' service).map Standing.plugin)) ∧ _
      rw [ht service]
      exact hhead
    | hotReload service newImpl | unregister service | setServiceAcl service allowed =>
      exact fun hst => hsafe service (hhead hst)
    | register service impl plugin => exact fun _ => trivial

/-- The entry of a service keeps its proxy until it is unregistered. -/
lemma entry_registryHandles (origin : Bytes) {e}
    (he : w.services[service]? = some e) (hmsg : msg ≠ .unregister service) :
    ∃ e' : VersionedEntry, (w.registryHandles origin msg).services[service]? = some e' ∧ e'.proxy = e.proxy := by
  cases msg with
  | register svc impl plugin =>
    refine ⟨e, ?_, rfl⟩
    show (w.onRegister svc impl plugin).services[service]? = some e
    by_cases hmem : svc ∈ w.services
    · rwa [onRegister, if_pos hmem]
    · have hne : ¬ svc = service := by
        rintro rfl
        rw [Std.ExtTreeMap.getElem?_eq_none hmem] at he
        simp at he
      rw [onRegister, if_neg hmem]
      simp [lookup_insert, hne, he]
  | hotReload svc newImpl =>
    show ∃ e' : VersionedEntry, (w.onHotReload origin svc newImpl).services[service]? = some e' ∧ e'.proxy = e.proxy
    cases he' : w.services[svc]? with
    | none =>
      rw [onHotReload, he']
      exact ⟨e, he, rfl⟩
    | some e₀ =>
      rw [onHotReload, he']
      by_cases hsvc : svc = service
      · subst hsvc
        obtain rfl : e = e₀ := by simpa [he] using he'
        exact ⟨{ e with version := e.version + 1, impl := newImpl }, by simp [World.touch], rfl⟩
      · exact ⟨e, by simp [World.touch, lookup_insert, hsvc, he], rfl⟩
  | unregister svc =>
    have hne : ¬ svc = service := fun h => hmsg (congrArg RegistryMsg.unregister h)
    refine ⟨e, ?_, rfl⟩
    show (w.onUnregister origin svc).services[service]? = some e
    have hkept : (w.services.erase svc)[service]? = some e := by
      rw [lookup_erase, if_neg hne]
      exact he
    unfold onUnregister
    split
    · exact he
    · dsimp only
      split <;> exact hkept
  | setServiceAcl svc allowed =>
    refine ⟨e, ?_, rfl⟩
    show (w.onSetServiceAcl origin svc allowed).services[service]? = some e
    unfold onSetServiceAcl
    split
    · exact he
    · rw [(Steady.toProxy _ _).services]
      exact he
  | resolve r svc => exact ⟨e, he, rfl⟩

lemma HomeOf.registryHandles (hs : w.Sane) (hm : w.registryMail = (origin, msg) :: rest) (h : w.HomeOf p service) :
    ({ w with registryMail := rest }.registryHandles origin msg).HomeOf p service := by
  obtain ⟨⟨e, he, rfl⟩, hstays⟩ := h
  rw [hm] at hstays
  have hrest : Sane { w with registryMail := rest } := ⟨hs.fresh, hs.owned, hs.distinct⟩
  have hmail := (applied_registryHandles hrest origin msg).mail
  obtain ⟨e', he', hp⟩ := entry_registryHandles (w := { w with registryMail := rest }) origin he
    (hstays (origin, msg) mem_cons_self)
  refine ⟨⟨e', he', hp⟩, ?_⟩
  rw [hmail]
  exact fun m hmem => hstays m (mem_cons_of_mem _ hmem)

/-- The registry answers a question by its table. -/
lemma fits_resolve (hs : w.Sane) (service : Bytes) (hstays : ∀ m ∈ w.registryMail, m.2 ≠ .unregister service) :
    w.Fits (.service service ((w.registered service).map Standing.plugin))
      (.handle (w.services[service]?.map VersionedEntry.proxy)) := by
  cases he : w.services[service]? with
  | none =>
    simp only [registered_none he, map_none]
    trivial
  | some e =>
    simp only [registered_eq he, map_some, standing_plugin]
    exact ⟨hs.owned service e he, ⟨e, he, rfl⟩, hstays⟩

/-- The registry takes up a message. -/
lemma boxes_registryHandles (hs : w.Sane) (hm : w.registryMail = (origin, msg) :: rest) (h : w.Boxes strict L)
    (hmsg : TakesUp strict L.asked w.registered origin rest msg) :
    ({ w with registryMail := rest }.registryHandles origin msg).Boxes strict L := by
  have hhome : ∀ p service, w.HomeOf p service →
      ({ w with registryMail := rest }.registryHandles origin msg).HomeOf p service :=
    fun p service hp => hp.registryHandles hs hm
  have hplug : ∀ {service} {e}, w.services[service]? = some e →
      (∀ st, w.registered service = some st → st.plugin = origin) → origin = e.plugin := by
    intro service e he hsafe
    rw [← hsafe _ (registered_eq he), standing_plugin]
  let v : World μ := { w with registryMail := rest }
  have hv : v.services = w.services := rfl
  cases msg with
  | register service impl plugin =>
    change ∀ p s, w.HomeOf p s → (v.onRegister service impl plugin).HomeOf p s at hhome
    show (v.onRegister service impl plugin).Boxes strict L
    by_cases hmem : service ∈ w.services
    · rw [onRegister, if_pos hmem] at hhome ⊢
      exact h.shift rfl rfl rfl rfl hhome
    · let proxy : Proxy μ := spawnServiceProxy impl w.allowCrossNode
      have hnone : w.proxies w.nextAddress = none := hs.fresh w.nextAddress le_rfl
      have hnew := h.setProxy w.nextAddress ⟨proxy.state, plugin, [], proxy.log, false, true⟩
        (fun old hold => by simp [hnone] at hold) (fun old hold => by simp [hnone] at hold) trivial
      rw [onRegister, if_neg hmem] at hhome ⊢
      exact hnew.shift rfl rfl rfl rfl fun p s hp => hhome p s ⟨hp.entry, hp.stays⟩
  | hotReload service newImpl =>
    change ∀ p s, w.HomeOf p s → (v.onHotReload origin service newImpl).HomeOf p s at hhome
    show (v.onHotReload origin service newImpl).Boxes strict L
    cases he : w.services[service]? with
    | none =>
      rw [onHotReload, hv, he] at hhome ⊢
      exact h.shift rfl rfl rfl rfl hhome
    | some e =>
      have htouch := h.touch .retarget fun hst => hplug he (hmsg hst)
      rw [onHotReload, hv, he] at hhome ⊢
      exact htouch.shift rfl rfl rfl rfl fun p s hp => hhome p s ⟨hp.entry, hp.stays⟩
  | unregister service =>
    change ∀ p s, w.HomeOf p s → (v.onUnregister origin service).HomeOf p s at hhome
    show (v.onUnregister origin service).Boxes strict L
    cases he : w.services[service]? with
    | none =>
      rw [onUnregister, hv, he] at hhome ⊢
      exact h.shift rfl rfl rfl rfl hhome
    | some e =>
      obtain ⟨cell, hc, -⟩ := hs.owned service e he
      have htouch := h.touch .unregister fun hst => hplug he (hmsg hst)
      have hcell : ∀ old, (w.touch .unregister origin e.plugin).proxies e.proxy = some old → cell = old := by
        intro old hold
        simpa [World.touch, hc] using hold
      have hdoomed := htouch.setProxy e.proxy { cell with doomed := true }
        (fun old hold => hcell old hold ▸ rfl) (fun old hold ho => by
          obtain rfl := hcell old hold
          exact ⟨ho.paused, ho.mail⟩) (h.letters e.proxy cell hc)
      have hproxy : ({ v with services := w.services.erase service }.touch .unregister origin
        e.plugin).proxies e.proxy = some cell := hc
      simp only [onUnregister, hv, he, hproxy] at hhome ⊢
      exact hdoomed.shift rfl rfl rfl rfl fun p s hp => hhome p s ⟨hp.entry, hp.stays⟩
  | setServiceAcl service allowed =>
    change ∀ p s, w.HomeOf p s → (v.onSetServiceAcl origin service allowed).HomeOf p s at hhome
    show (v.onSetServiceAcl origin service allowed).Boxes strict L
    cases he : w.services[service]? with
    | none =>
      rw [onSetServiceAcl, hv, he] at hhome ⊢
      exact h.shift rfl rfl rfl rfl hhome
    | some e =>
      obtain ⟨cell, hc, ho⟩ := hs.owned service e he
      have hletter : LetterOk strict L.asked e.proxy cell.owner []
          ({ origin := some origin, msg := .setAcl allowed } : ProxyLetter μ) := by
        refine ⟨fun r hr => by simp at hr, fun hst o horigin _ => ?_⟩
        obtain rfl : origin = o := by simpa using horigin
        exact (hplug he (hmsg hst)).trans ho.symm
      have hposted := h.post hc hletter (by simp)
      have hproxy : v.proxies e.proxy = some cell := hc
      simp only [onSetServiceAcl, hv, he, toProxy_eq hproxy] at hhome ⊢
      exact hposted.shift rfl rfl rfl rfl fun p s hp => hhome p s ⟨hp.entry, hp.stays⟩
  | resolve request service =>
    have hans : (w.answer request (.handle (w.services[service]?.map VersionedEntry.proxy))).Boxes strict L := by
      rcases hmsg with hstale | ⟨hasked, hstays⟩
      · exact h.answer hstale trivial
      · refine h.answer hasked (fits_resolve hs service fun m hmem => ?_)
        rw [hm] at hmem
        rcases mem_cons.mp hmem with rfl | hmem
        · simp
        · exact hstays m hmem
    exact hans.shift rfl rfl rfl rfl fun p s hp => hhome p s ⟨hp.entry, hp.stays⟩

/-! ## The background -/

lemma boxes_background (hs : w.Sane) (hmail : MailOk strict L.asked w.registered w.registryMail)
    (h : w.Boxes strict L) (hb : w.background b = some w') : w'.Boxes strict L := by
  cases background_moves hb with
  | @registry origin msg rest hm =>
    rw [hm] at hmail
    exact boxes_registryHandles hs hm h hmail.1
  | proxy hp ha hm => exact boxes_proxyHandles h hp hm
  | @actor a cell msg snapshot hc ha hm =>
    have hset : (w.setActor a { cell with handled := cell.handled + 1 }).Boxes strict L :=
      h.setActor fun r hr => h.states a cell r hc hr
    cases msg with
    | saveState r => exact hset.answer (h.states a cell r hc (mem_of_getElem? hm)) trivial
    | _ => exact hset
  | call hp ha | notify hp hn =>
    exact h.post hp ⟨fun r hr => by simp at hr, fun _ o ho => by simp at ho⟩ (by simp)
  | @proxyExit p cell hp ha hd =>
    refine h.setProxy _ _ (fun old hold => ?_) (fun old hold ho => ?_) (h.letters p cell hp)
    · rw [hp, some.injEq] at hold
      rw [← hold]
    · rw [hp, some.injEq] at hold
      subst hold
      exact ⟨ho.paused, ho.mail⟩
  | actorExit hc ha hd | die hc ha => exact h.setActor fun r hr => h.states _ _ r hc hr

/-- Every message that is left in the mailbox of the registry is taken up as before, by the table it then finds. -/
lemma mailOk_background (hs : w.Sane)
    (hmail : MailOk strict L.asked w.registered w.registryMail) (hb : w.background b = some w') :
    MailOk strict L.asked w'.registered w'.registryMail := by
  rcases background_table hs hb with ⟨origin, msg, rest, hm, -, happ⟩ | halike
  · rw [hm] at hmail
    rw [happ.registered, happ.mail]
    exact hmail.2
  · rw [halike.registered hs, halike.mail]
    exact hmail

lemma next_background (hs : w.Sane) (hb : w.background b = some w') : w.next ≤ w'.next := by
  rcases background_table hs hb with ⟨origin, msg, rest, hm, -, happ⟩ | halike
  · exact happ.next
  · exact halike.next

/-- **The background does not show in the ledger.** -/
theorem keeps_background (h : w.Keeps strict L) (hb : w.background b = some w') :
    w'.Keeps strict L := by
  obtain ⟨hsane, hsettle⟩ := settle_background h.sane hb
  have hnext := next_background h.sane hb
  exact ⟨hsane, hsettle.trans h.table, fun r hr => h.fresh r (hnext.trans hr),
    fun a ha => (h.named a (names_background hb ha)).trans_le hnext, h.next.trans hnext,
    mailOk_background h.sane h.mail hb, boxes_background h.sane h.mail h.boxes hb⟩

/-! ## The operations of the manager -/

namespace Boxes

/-- One more request. -/
lemma ask (h : w.Boxes strict L) (hnew : L.asked request = none) (q : Question) :
    w.Boxes strict (L.ask request q) := by
  have hasked : ∀ r q', L.asked r = some q' → (L.ask request q).asked r = some q' := fun r q' => L.ask_asked hnew
  refine ⟨h.owners, h.homes, h.holds, fun p cell hp => (h.letters p cell hp).mono fun r hr => ?_,
    fun a cell r ha hr => hasked r _ (h.states a cell r ha hr),
    fun r a ha => (h.answered r a ha).imp fun q hq => ⟨hasked r q hq.1, hq.2⟩, h.touched⟩
  rcases hr with hr | hr <;> rw [hr, hasked r _ hr]

/-- A message to the registry: what is known of a service that it unregisters is forgotten. -/
lemma tell (h : w.Boxes strict L) (origin : Bytes) (msg : RegistryMsg) :
    (w.toRegistry origin msg).Boxes strict (L.tell msg) := by
  have hhome : ∀ p service, msg ≠ .unregister service → w.HomeOf p service →
      (w.toRegistry origin msg).HomeOf p service := by
    intro p service hne hp
    refine ⟨hp.entry, fun m hm => ?_⟩
    rcases mem_append.mp hm with hm | hm
    · exact hp.stays m hm
    · rw [mem_singleton.mp hm]
      exact hne
  refine ⟨h.owners, fun p service hp => ?_, h.holds, fun p cell hp => (h.letters p cell hp).mono fun r hr => ?_,
    fun a cell r ha hr => ?_, fun r a ha => ?_, h.touched⟩
  · obtain ⟨hp, hne⟩ : L.home p = some service ∧ msg ≠ .unregister service := by
      simpa [Ledger.tell, filter_eq_some_iff] using hp
    exact hhome p service hne (h.homes p service hp)
  · rcases hr with hr | hr <;> simp [Ledger.tell, hr, Question.told]
  · simp [Ledger.tell, h.states a cell r ha hr, Question.told]
  · obtain ⟨q, hq, hf⟩ := h.answered r a ha
    refine ⟨q.told msg, by simp [Ledger.tell, hq], ?_⟩
    match q, a, hf with
    | .stale, _, _ => trivial
    | .pause p, .flag b, hb => exact hb
    | .state, .data _, _ => trivial
    | .service service none, .handle none, _ =>
      by_cases hdrop : msg = .unregister service
      · simp [Question.told, hdrop, Fits]
      · simp [Question.told, hdrop, Fits]
    | .service service (some plugin), .handle (some p), hp =>
      by_cases hdrop : msg = .unregister service
      · simp [Question.told, hdrop, Fits]
      · simp only [Question.told, hdrop, if_false]
        exact ⟨hp.1, hhome p service hdrop hp.2⟩

/-- The pauses in a mailbox are stale once the proxy is sent an implementation. -/
lemma lettersOk_resumed {asked : ℕ → Option Question} {p : Address} {letter : ProxyLetter μ}
    (hletter : LetterOk strict (fun r => (asked r).map (.resumed p)) p owner [] letter) {mail : List (ProxyLetter μ)}
    (hmail : LettersOk strict asked p owner mail) :
    LettersOk strict (fun r => (asked r).map (.resumed p)) p owner (mail ++ [letter]) := by
  induction mail with
  | nil => exact ⟨hletter, trivial⟩
  | cons l rest ih =>
    refine ⟨⟨fun r hr => ?_, hmail.1.origin⟩, ih hmail.2⟩
    obtain ⟨hquiesce, hasked⟩ := hmail.1.request r hr
    refine ⟨hquiesce, .inl ?_⟩
    rcases hasked with hstale | ⟨hpause, -⟩
    · simp [hstale, Question.resumed]
    · simp [hpause, Question.resumed]

/-- A proxy is sent an implementation. -/
lemma resume (h : w.Boxes strict L) {p} (hp : w.proxies p = some cell)
    {letter} (hreq : letter.request = none)
    (horigin : strict → ∀ o, letter.origin = some o → o = cell.owner) :
    (w.setProxy p { cell with mail := cell.mail ++ [letter] }).Boxes strict (L.resume p target) := by
  have howned : ∀ q plugin, w.OwnedBy q plugin →
      (w.setProxy p { cell with mail := cell.mail ++ [letter] }).OwnedBy q plugin := by
    rintro q plugin ⟨old, hq, ho⟩
    by_cases hqp : q = p
    · subst hqp
      obtain rfl : cell = old := by simpa [hp] using hq
      exact ⟨_, setProxy_same w q _, ho⟩
    · exact ⟨old, (setProxy_other hqp _).trans hq, ho⟩
  have hhalted : ∀ q, q ≠ p → w.Halted q →
      (w.setProxy p { cell with mail := cell.mail ++ [letter] }).Halted q := by
    rintro q hqp ⟨old, hq, ho⟩
    exact ⟨old, (setProxy_other hqp _).trans hq, ho⟩
  refine ⟨fun q plugin hq => howned q plugin (h.owners q plugin hq), fun q s hq => ?_, fun q hq => ?_,
    fun q c hq => ?_, fun a c r ha hr => ?_, fun r a ha => ?_, h.touched⟩
  · exact ⟨(h.homes q s hq).entry, (h.homes q s hq).stays⟩
  · have hqp : q ≠ p := by
      rintro rfl
      simp [Ledger.resume] at hq
    refine hhalted q hqp (h.holds q ?_)
    simpa [Ledger.resume, update_of_ne hqp] using hq
  · by_cases hqp : q = p
    · subst hqp
      obtain rfl : _ = c := by simpa [setProxy_same] using hq
      refine lettersOk_resumed ⟨fun r hr => by simp [hreq] at hr, fun hst o ho _ => horigin hst o ho⟩ ?_
      exact h.letters q cell hp
    · rw [setProxy_other hqp] at hq
      refine (h.letters q c hq).mono fun r hr => ?_
      rcases hr with hr | hr
      · simp [Ledger.resume, hr, Question.resumed]
      · simp [Ledger.resume, hr, Question.resumed, hqp]
  · simp [Ledger.resume, h.states a c r ha hr, Question.resumed]
  · obtain ⟨q, hq, hf⟩ := h.answered r a ha
    refine ⟨q.resumed p, by simp [Ledger.resume, hq], ?_⟩
    match q, a, hf with
    | .stale, _, _ => trivial
    | .state, .data _, _ => trivial
    | .service service none, .handle none, _ => trivial
    | .service service (some plugin), .handle (some p'), hp' =>
      exact ⟨howned p' plugin hp'.1, hp'.2.entry, hp'.2.stays⟩
    | .pause p', .flag b, hb =>
      by_cases hpp : p' = p
      · simp [Question.resumed, hpp, Fits]
      · simp only [Question.resumed, hpp, if_false]
        exact ⟨hb.1, hhalted p' hpp hb.2⟩

end Boxes

lemma bump_toProxy (p : Address) (letter : ProxyLetter μ) : (w.toProxy p letter).bump = w.bump.toProxy p letter := by
  cases hp : w.proxies p with
  | none => simp [toProxy, World.bump, hp]
  | some cell => simp [toProxy, World.bump, hp, World.setProxy]

lemma bump_toActor (a : Address) (msg : ActorMsg μ) : (w.toActor a msg).bump = w.bump.toActor a msg := by
  cases ha : w.actors a with
  | none => simp [toActor, World.bump, ha]
  | some cell => simp [toActor, World.bump, ha, World.setActor]

namespace Keeps

section

variable (h : w.Keeps strict L)
include h

/-- Nothing changed but what the ledger does not have. -/
lemma of_alike (ha : Alike w w') (hnames : ∀ a, w'.Names a → w.Names a)
    (hboxes : w'.Boxes strict L) : w'.Keeps strict L := by
  refine ⟨ha.sane h.sane, (ha.settle h.sane).trans h.table, fun r hr => h.fresh r (ha.next.trans hr),
    fun a hn => (h.named a (hnames a hn)).trans_le ha.next, h.next.trans ha.next, ?_, hboxes⟩
  rw [ha.registered h.sane, ha.mail]
  exact h.mail

lemma bump : w.bump.Keeps strict L :=
  h.of_alike (.of_eq rfl rfl (Nat.le_succ _) rfl) (fun _ hn => names_of_eq hn rfl fun _ hm => hm)
    (h.boxes.shift rfl rfl rfl rfl fun _ _ hp => ⟨hp.entry, hp.stays⟩)

/-- A request is sent: the ledger has its number. -/
lemma ask (q : Question) : w.bump.Keeps strict (L.ask w.next q) := by
  have hnew : L.asked w.next = none := h.fresh w.next le_rfl
  refine ⟨h.bump.sane, h.bump.table, fun r hr => ?_, h.bump.named, h.bump.next, h.bump.mail.mono fun r hr => ?_,
    h.bump.boxes.ask hnew q⟩
  · have hlt : w.next + 1 ≤ r := hr
    exact (update_of_ne (by omega) _ _).trans (h.fresh r (by omega))
  · rcases hr with hr | ⟨s, plugin, hr⟩ <;> rw [hr, L.ask_asked hnew hr]

lemma toRegistry (origin : Bytes) (msg : RegistryMsg) (hnames : ∀ a, msg.Names a → a.id < w.next)
    (hmsg : TakesUp strict (L.tell msg).asked L.table origin [] msg) :
    (w.toRegistry origin msg).Keeps strict (L.tell msg) := by
  refine ⟨⟨h.sane.fresh, h.sane.owned, h.sane.distinct⟩, ?_, fun r hr => ?_, ?_, h.next, mailOk_append h.mail ?_,
    h.boxes.tell origin msg⟩
  · rw [settle_toRegistry, h.table]
    rfl
  · simp [Ledger.tell, h.fresh r hr]
  · rintro a (hproxy | ⟨m, hm, hn⟩)
    · exact h.named a (.inl hproxy)
    · rcases mem_append.mp hm with hm | hm
      · exact h.named a (.inr ⟨m, hm, hn⟩)
      · rw [mem_singleton.mp hm] at hn
        exact hnames a hn
  · show TakesUp strict (L.tell msg).asked w.settle origin [] msg
    rwa [h.table]

lemma setActor (a : Address) (cell : ActorCell μ)
    (hrecv : ∀ r, .saveState r ∈ cell.received → L.asked r = some .state) :
    (w.setActor a cell).Keeps strict L :=
  h.of_alike (.of_eq rfl rfl le_rfl rfl) (fun _ hn => names_of_eq hn rfl fun _ hm => hm)
    (h.boxes.setActor hrecv)

lemma toActor {msg} (hmsg : ∀ r, msg = .saveState r → L.asked r = some .state) : (w.toActor a msg).Keeps strict L :=
  h.of_alike (.toActor a msg)
    (fun _ hn => names_of_eq hn (toActor_proxies w a msg) fun m hm => by rwa [toActor_registryMail] at hm)
    (h.boxes.toActor hmsg)

lemma tellActor (a : Address) (msg : LifecycleMsg) :
    (w.tellActor a msg).Keeps strict L := by
  cases msg with
  | exit =>
    unfold World.tellActor
    cases ha : w.actors a with
    | none => exact h
    | some cell => exact h.setActor _ _ fun r hr => h.boxes.states a cell r ha hr
  | _ => exact h.toActor fun r hr => by simp at hr

end

variable {p : Address}

variable (h : w.Keeps strict L)
include h

/-- A message that the manager sends to a proxy whose service it knows. -/
lemma signal (hhome : L.home p ≠ none) (letter : ProxyLetter μ) (hletter : ∀ allowed, letter.msg ≠ .setAcl allowed) :
    ∃ cell, w.proxies p = some cell ∧ (w.toProxy p letter).settle = L.signal p (·.after letter.msg) := by
  obtain ⟨service, hsvc⟩ := ne_none_iff_exists'.mp hhome
  obtain ⟨⟨e, he, rfl⟩, hstays⟩ := h.boxes.homes p service hsvc
  obtain ⟨cell, hc, -⟩ := h.sane.owned service e he
  refine ⟨cell, hc, ?_⟩
  rw [settle_toProxy h.sane he hstays hletter, h.table, Ledger.signal, hsvc]
  rfl

/-- What a message to a proxy leaves as it is. -/
lemma toProxy (hc : w.proxies p = some cell)
    {letter L'} (htab : (w.toProxy p letter).settle = L'.table)
    (hfresh : ∀ r, w.next ≤ r → L'.asked r = none) (hnames : ∀ a, letter.msg = .resume a → a.id < w.next)
    (hnext : L'.next ≤ w.next) (hmail : MailOk strict L'.asked w.registered w.registryMail)
    (hboxes : (w.toProxy p letter).Boxes strict L') : (w.toProxy p letter).Keeps strict L' := by
  have hsteady : Steady w (w.toProxy p letter) := .toProxy p letter
  refine ⟨hsteady.sane h.sane, htab, fun r hr => hfresh r (hsteady.next.trans hr), fun a hn => ?_,
    hnext.trans hsteady.next, ?_, hboxes⟩
  · rw [toProxy_eq hc] at hn ⊢
    by_cases ha : a.id < w.next
    · exact ha
    · exact h.named a (names_post hn hc fun hmsg => absurd (hnames a hmsg) ha)
  · rw [hsteady.mail]
    refine hmail.congr fun service => ?_
    simp only [registered, hsteady.services, Option.map_map]
    cases w.services[service]? <;> simp

/-- A reply tells what the question was about. -/
lemma replied {a} (ha : w.answers request = some a) :
    ∃ L', L.replied request (some a) L' ∧ w.Keeps strict L' := by
  obtain ⟨q, hq, hf⟩ := h.boxes.answered request a ha
  match q, a, hf with
  | .service service none, .handle none, _ => exact ⟨L, by simp [Ledger.replied, hq], h⟩
  | .state, .data _, _ => exact ⟨L, by simp [Ledger.replied, hq], h⟩
  | .stale, _, _ => exact ⟨L, by simp [Ledger.replied, hq], h⟩
  | .pause p, .flag b, ⟨hb, hhalted⟩ =>
    refine ⟨L.hold p, by simp [Ledger.replied, hq, hb], h.sane, h.table, h.fresh, h.named, h.next, h.mail,
      h.boxes.owners, h.boxes.homes, fun q hheld => ?_, h.boxes.letters, h.boxes.states, h.boxes.answered,
      h.boxes.touched⟩
    by_cases hqp : q = p
    · exact hqp ▸ hhalted
    · exact h.boxes.holds q (by simpa [Ledger.hold, update_of_ne hqp] using hheld)
  | .service service (some plugin), .handle (some p), ⟨howned, hhome⟩ =>
    refine ⟨L.learn p service plugin, ?_, h.sane, h.table, h.fresh, h.named, h.next, h.mail, fun p' plugin' hp' => ?_,
      fun p' s hp' => ?_, h.boxes.holds, h.boxes.letters, h.boxes.states, h.boxes.answered, h.boxes.touched⟩
    · simp only [Ledger.replied, hq]
      refine ⟨fun o ho => ?_, fun s hs => ?_, trivial⟩
      · obtain ⟨cell, hc, hcell⟩ := h.boxes.owners p o ho
        obtain ⟨cell', hc', hcell'⟩ := howned
        obtain rfl : cell = cell' := by simpa [hc] using hc'
        exact hcell.symm.trans hcell'
      · obtain ⟨e, he, hp⟩ := (h.boxes.homes p s hs).entry
        obtain ⟨e', he', hp'⟩ := hhome.entry
        exact h.sane.distinct s service e e' he he' (hp.trans hp'.symm)
    · by_cases hpp : p' = p
      · subst hpp
        obtain rfl : plugin = plugin' := by simpa [Ledger.learn] using hp'
        exact howned
      · exact h.boxes.owners p' plugin' (by simpa [Ledger.learn, update_of_ne hpp] using hp')
    · by_cases hpp : p' = p
      · subst hpp
        obtain rfl : service = s := by simpa [Ledger.learn] using hp'
        exact hhome
      · exact h.boxes.homes p' s (by simpa [Ledger.learn, update_of_ne hpp] using hp')

/-- A proxy is asked to pause. -/
lemma quiesce {origin} (hhome : L.home p ≠ none) (howner : strict → L.owner p = some origin) :
    (w.toProxy p { origin := some origin, request := some w.next, msg := .quiesce }).bump.Keeps strict
      (L.quiesce w.next p) := by
  rw [bump_toProxy]
  have hask := h.ask (.pause p)
  obtain ⟨cell, hc, htab⟩ := hask.signal hhome
    { origin := some origin, request := some w.next, msg := .quiesce } (by simp)
  refine hask.toProxy hc htab hask.fresh (by simp) hask.next hask.mail ?_
  have hletter : LetterOk strict (L.ask w.next (.pause p)).asked p cell.owner []
      ({ origin := some origin, request := some w.next, msg := .quiesce } : ProxyLetter μ) := by
    refine ⟨fun r hr => ?_, fun hst o ho _ => ?_⟩
    · obtain rfl : w.next = r := by simpa using hr
      exact ⟨rfl, .inr ⟨update_self _ _ _, by simp⟩⟩
    · obtain rfl : origin = o := by simpa using ho
      obtain ⟨cell', hc', howned⟩ := hask.boxes.owners p origin (howner hst)
      obtain rfl : cell = cell' := by simpa [hc] using hc'
      exact howned.symm
  have hposted := hask.boxes.post hc hletter (by simp)
  rw [toProxy_eq hc]
  exact ⟨hposted.owners, hposted.homes, hposted.holds, hposted.letters, hposted.states, hposted.answered,
    hposted.touched⟩

/-- A proxy is sent an implementation. -/
lemma resume {origin} (hhome : L.home p ≠ none)
    (htgt : target.id < L.next) (howner : strict → L.owner p = some origin) :
    (w.toProxy p { origin := some origin, msg := .resume target }).Keeps strict (L.resume p target) := by
  obtain ⟨cell, hc, htab⟩ := h.signal hhome { origin := some origin, msg := .resume target } (by simp)
  refine h.toProxy hc htab (fun r hr => ?_) (fun a ha => ?_) h.next (h.mail.mono fun r hr => ?_) ?_
  · simp [Ledger.resume, h.fresh r hr]
  · obtain rfl : target = a := by simpa using ha
    exact htgt.trans_le h.next
  · rcases hr with hr | ⟨s, plugin, hr⟩
    · simp [Ledger.resume, hr, Question.resumed]
    · simp [Ledger.resume, hr, Question.resumed]
  · rw [toProxy_eq hc]
    refine h.boxes.resume hc rfl fun hst o ho => ?_
    obtain rfl : origin = o := by simpa using ho
    obtain ⟨cell', hc', howned⟩ := h.boxes.owners p origin (howner hst)
    obtain rfl : cell = cell' := by simpa [hc] using hc'
    exact howned.symm

end Keeps

/-- **Every operation does what the account says.** -/
theorem keeps_perform {e c r} (h : w.Keeps strict L)
    (hmay : L.may strict e) (hok : ok e r) (hp : w.perform e c = some (r, w')) :
    ∃ L', L.does ok e r L' ∧ w'.Keeps strict L' := by
  have hnew : L.asked w.next = none := h.fresh w.next le_rfl
  cases e with
  | openLibrary path =>
    cases c <;> simp only [perform, reduceCtorEq, some.injEq, Prod.mk.injEq] at hp
    obtain ⟨-, rfl⟩ := hp
    exact ⟨L, ⟨hok, rfl⟩, h⟩
  | create =>
    cases c <;> simp only [perform, reduceCtorEq, some.injEq, Prod.mk.injEq] at hp
    obtain ⟨-, rfl⟩ := hp
    exact ⟨L, rfl, h.bump⟩
  | destroy entry =>
    cases c <;> simp only [perform, reduceCtorEq, some.injEq, Prod.mk.injEq] at hp
    obtain ⟨-, rfl⟩ := hp
    exact ⟨L, rfl, h.of_alike (.of_eq rfl rfl le_rfl rfl) (fun _ hn => names_of_eq hn rfl fun _ hm => hm)
      (h.boxes.shift rfl rfl rfl rfl fun _ _ hp => ⟨hp.entry, hp.stays⟩)⟩
  | resolve origin service =>
    cases c <;> simp only [perform, reduceCtorEq, some.injEq, Prod.mk.injEq] at hp
    obtain ⟨rfl, rfl⟩ := hp
    refine ⟨_, ⟨hnew, rfl⟩, ?_⟩
    have hask := h.ask (.service service ((L.table service).map Standing.plugin))
    have htold := hask.toRegistry origin (.resolve w.next service) (fun a ha => ha.elim)
      (.inr ⟨by rw [Ledger.tell_resolve]; exact update_self _ _ _, by simp⟩)
    rwa [Ledger.tell_resolve] at htold
  | quiesce origin proxy =>
    cases c <;> simp only [perform, reduceCtorEq, some.injEq, Prod.mk.injEq] at hp
    obtain ⟨rfl, rfl⟩ := hp
    exact ⟨_, ⟨hnew, rfl⟩, h.quiesce hmay.1 hmay.2⟩
  | saveState actor =>
    cases c <;> simp only [perform, reduceCtorEq, some.injEq, Prod.mk.injEq] at hp
    obtain ⟨rfl, rfl⟩ := hp
    refine ⟨_, ⟨hnew, rfl⟩, ?_⟩
    rw [bump_toActor]
    refine (h.ask .state).toActor fun r hr => ?_
    obtain rfl : w.next = r := by simpa using hr
    exact update_self _ _ _
  | receive kind request =>
    cases c <;> simp only [perform, reduceCtorEq, some.injEq, Prod.mk.injEq,
      map_eq_some_iff] at hp
    · obtain ⟨a, ha, rfl, rfl⟩ := hp
      obtain ⟨L', hreplied, hkeeps⟩ := h.replied ha
      exact ⟨L', ⟨hok, hreplied⟩, hkeeps⟩
    · obtain ⟨rfl, rfl⟩ := hp
      exact ⟨L, ⟨hok, rfl⟩, h⟩
  | restoreState name | monitor actor =>
    cases c <;> simp only [perform, reduceCtorEq, some.injEq, Prod.mk.injEq] at hp
    obtain ⟨-, rfl⟩ := hp
    exact ⟨L, rfl, h⟩
  | spawn entry deps =>
    cases c <;> simp only [perform, reduceCtorEq, some.injEq, Prod.mk.injEq] at hp
    obtain ⟨rfl, rfl⟩ := hp
    have hset := (h.setActor w.nextAddress {} fun r hr => by simp at hr).bump
    exact ⟨L.spawn w.nextAddress, ⟨h.next, rfl⟩, hset.sane, hset.table, hset.fresh, hset.named, le_rfl, hset.mail,
      hset.boxes.owners, hset.boxes.homes, hset.boxes.holds, hset.boxes.letters, hset.boxes.states,
      hset.boxes.answered, hset.boxes.touched⟩
  | tellRegistry origin msg =>
    cases c <;> simp only [perform, reduceCtorEq, some.injEq, Prod.mk.injEq] at hp
    obtain ⟨-, rfl⟩ := hp
    refine ⟨_, rfl, h.toRegistry _ _ (fun a ha => (hmay.2.1 a ha).trans_le h.next) ?_⟩
    cases msg with
    | resolve request service => exact absurd rfl (hmay.1 request service)
    | _ => exact hmay.2.2
  | resume origin proxy target =>
    cases c <;> simp only [perform, reduceCtorEq, some.injEq, Prod.mk.injEq] at hp
    obtain ⟨-, rfl⟩ := hp
    exact ⟨_, rfl, h.resume hmay.1 hmay.2.1 hmay.2.2⟩
  | tell actor msg =>
    cases c <;> simp only [perform, reduceCtorEq, some.injEq, Prod.mk.injEq] at hp
    obtain ⟨-, rfl⟩ := hp
    exact ⟨L, rfl, h.tellActor actor msg⟩

end World

/-- **The account tracks the world**, whatever happens in the background. -/
theorem account_tracks {μ : Type} (strict : Prop)
    (allowed : World μ → World.Background μ → Prop) {agreed : Op → World μ → World.Choice → Prop}
    {G : World μ → Prop} (hG : ∀ w L, w.Keeps strict L → G w)
    (hok : ∀ e (w w' : World μ) c r, agreed e w c → w.perform e c = some (r, w') → ok e r) :
    Tracks (surroundings allowed agreed) G (account strict ok) (World.Keeps strict) where
  now := hG
  env := fun _ _ _ hkeeps henv => World.keeps_background hkeeps henv.choose_spec.2
  sem := fun e w r w' _ hkeeps hmay hsem =>
    have hc := hsem.choose_spec
    World.keeps_perform hkeeps hmay (hok e w w' _ r hc.1 hc.2) hc.2

end Caf.Plugin
