import CafPluginSystem.Bridge.Frames

/-!
# The frames of the Python client

`tools/bridge_proto.py` writes the frames of an external process.  Its `RESULT` frames are what the bridge reads.  Its
`CALL` frames are `CALL <id> <svc> <len>`, while the bridge expects `CALL <id> <svc> <proto> <len>`, with the number of
the external protocol: it finds no space in the third part of the header line and marks the connection.

* `client_frames` — a frame of the client is accepted if and only if it is a `RESULT`.
-/

namespace Caf.Bridge

open DecimalText

/-- `make_call_frame`; the strings are UTF-8. -/
def makeCallFrame (cid : ℤ) (svc payload : Bytes) : Bytes :=
  str "CALL " ++ intText cid ++ str " " ++ svc ++ str " " ++ natText payload.length ++ str "\n" ++ payload ++ str "\n"

/-- `make_result_frame`. -/
def makeResultFrame (rid : ℤ) (ok : Bool) (payload : Bytes) : Bytes :=
  str "RESULT " ++ intText rid ++ str " " ++ (if ok then str "OK" else str "ERR") ++ str " " ++ natText payload.length
    ++ str "\n" ++ payload ++ str "\n"

/-- What the client sends. -/
inductive ClientFrame where
  | call (id : ℤ) (svc payload : Bytes)
  | result (id : ℤ) (ok : Bool) (payload : Bytes)
deriving DecidableEq, Repr

namespace ClientFrame

def bytes : ClientFrame → Bytes
  | .call id svc payload => makeCallFrame id svc payload
  | .result id ok payload => makeResultFrame id ok payload

/-- The id is an `int`, the payload has at most 64 MiB, and a service has a name without spaces and newlines. -/
def Sendable : ClientFrame → Prop
  | .call id svc payload => (-2147483648 ≤ id ∧ id ≤ 2147483647) ∧ payload.length ≤ maxPayload ∧
      svc ≠ [] ∧ space ∉ svc ∧ newline ∉ svc
  | .result id _ payload => (-2147483648 ≤ id ∧ id ≤ 2147483647) ∧ payload.length ≤ maxPayload

/-- A frame of the bridge says the same. -/
def Means : ClientFrame → ParsedFrame → Prop
  | .call id svc payload, .call id' svc' _ payload' => id' = id ∧ svc' = svc ∧ payload' = payload
  | .result id ok payload, .result id' ok' payload' => id' = id ∧ ok' = ok ∧ payload' = payload
  | _, _ => False

/-- The bridge takes exactly this frame from the front of its buffer, whatever follows. -/
def Accepted (f : ClientFrame) : Prop :=
  ∀ rest, ∃ frame, tryParseFrame (f.bytes ++ rest) = some (frame, rest) ∧ f.Means frame

def isResult : ClientFrame → Bool
  | .call _ _ _ => false
  | .result _ _ _ => true

end ClientFrame

/-- The client and the bridge write a `RESULT` in the same way. -/
lemma makeResultFrame_eq (rid : ℤ) (ok : Bool) (payload : Bytes) :
    makeResultFrame rid ok payload = resultFrame rid ok payload := by
  rw [resultFrame_eq]
  cases ok <;> simp [makeResultFrame, statusText, str, space, newline]

lemma makeCallFrame_eq (cid : ℤ) (svc payload : Bytes) :
    makeCallFrame cid svc payload = (str "CALL" ++ space :: (intText cid ++ space :: (svc ++ space ::
      natText payload.length))) ++ newline :: (payload ++ [newline]) := by
  simp [makeCallFrame, str, space, newline]

/-- **A `CALL` of the client is a protocol error.** -/
theorem tryParseFrame_makeCallFrame {cid : ℤ} {svc payload : Bytes} (hmin : -2147483648 ≤ cid)
    (hmax : cid ≤ 2147483647) (hpay : payload.length ≤ maxPayload) (hspace : space ∉ svc) (hline : newline ∉ svc)
    (rest : Bytes) : tryParseFrame (makeCallFrame cid svc payload ++ rest) = some (.invalid, rest) := by
  have hhead : newline ∉ str "CALL" ++ space :: (intText cid ++ space :: (svc ++ space :: natText payload.length)) := by
    simp only [List.mem_append, List.mem_cons, not_or]
    exact ⟨by decide, by decide, not_mem_intText (by decide) cid, by decide, hline, by decide,
      not_mem_natText (by decide) _⟩
  have hheader := parseHeader_eq svc (show space ∉ str "CALL" by decide)
    (not_mem_intText (c := space) (by decide) cid) hpay
  have hread := tryParseFrame_eq rest hhead hheader rfl
  -- the third part of the header is the service alone, and there is no protocol number behind it
  have hbody : parseBody ⟨str "CALL", intText cid, svc, payload.length⟩ payload = .invalid := by
    unfold parseBody
    simp only [stoi_intText hmin hmax, splitFirst_none.mpr hspace, if_true]
  have happend : makeCallFrame cid svc payload ++ rest = (str "CALL" ++ space :: (intText cid ++ space ::
      (svc ++ space :: natText payload.length))) ++ newline :: (payload ++ newline :: rest) := by
    rw [makeCallFrame_eq]
    simp
  rw [happend, hread, hbody]

/-- **The client and the bridge.**  The bridge accepts the `RESULT` frames of the client as they are meant, and none of
its `CALL` frames. -/
theorem client_frames (f : ClientFrame) (hf : f.Sendable) : f.Accepted ↔ f.isResult = true := by
  cases f with
  | call id svc payload =>
    obtain ⟨⟨hmin, hmax⟩, hpay, -, hspace, hline⟩ := hf
    refine ⟨fun hacc => ?_, fun h => by simp [ClientFrame.isResult] at h⟩
    obtain ⟨frame, hparse, hmeans⟩ := hacc []
    have hinvalid := tryParseFrame_makeCallFrame hmin hmax hpay hspace hline []
    obtain rfl : ParsedFrame.invalid = frame :=
      (Prod.mk.inj (Option.some.inj (hinvalid.symm.trans hparse))).1
    exact hmeans.elim
  | result id ok payload =>
    obtain ⟨⟨hmin, hmax⟩, hpay⟩ := hf
    refine ⟨fun _ => rfl, fun _ rest => ⟨.result id ok payload, ?_, rfl, rfl, rfl⟩⟩
    show tryParseFrame (makeResultFrame id ok payload ++ rest) = _
    rw [makeResultFrame_eq]
    exact tryParseFrame_result hmin hmax ok hpay rest

theorem client_frames_echo :
    (ClientFrame.result 1 true (str "echo")).Sendable ∧
      ((ClientFrame.result 1 true (str "echo")).Accepted ↔
        (ClientFrame.result 1 true (str "echo")).isResult = true) :=
  ⟨⟨by decide, by decide⟩, client_frames _ ⟨by decide, by decide⟩⟩

/-- The first call of the client's `main`. -/
theorem call_refused :
    (ClientFrame.call 1 (str "business_service") (str "hello-from-python")).Sendable ∧
      makeCallFrame 1 (str "business_service") (str "hello-from-python")
        = str "CALL 1 business_service 17\nhello-from-python\n" ∧
      tryParseFrame (makeCallFrame 1 (str "business_service") (str "hello-from-python")) = some (.invalid, []) := by
  refine ⟨?_, by decide +kernel, by decide +kernel⟩
  exact ⟨by decide, by decide +kernel, by decide +kernel, by decide +kernel, by decide +kernel⟩

end Caf.Bridge
