import Synergy.Ipc.IpcClient
import Synergy.Lib.Trace

/-! A client has one conversation at a time with its server, as long as no attempt fails before
another succeeds, nothing follows a rejection, and no connection ends in the middle of a message. -/
namespace Synergy.Ipc
open Lib

namespace IpcClient
variable {setup : IpcClientSetup} {c : IpcClient}

/-- The server turns the client away. -/
def rejects (parts : List Str) : Bool := parts.head? = some "error".toList || parts = ["hello".toList]

/-- The server answers the hello. -/
def accepts (parts : List Str) : Bool :=
  parts.head? = some "versionMismatch".toList || (parts.head? = some "hello".toList && parts ≠ ["hello".toList])

/-- The first message that decides about the hello is no rejection, unless nothing follows. -/
def rejectionIsLast : List (List Str) → Bool
  | [] => true
  | parts :: more => if rejects parts then more.isEmpty else accepts parts || rejectionIsLast more

def messages (setup : IpcClientSetup) (c : IpcClient) (bytes : Bytes) : List (List Str) :=
  (lines newline (c.readBuffer ++ bytes)).1.map fun line => splitIpcMessage (setup.fromUtf8 line)

/-- The messages may be processed. -/
def readable (c : IpcClient) (messages : List (List Str)) : Bool :=
  messages.isEmpty || !c.foreign && !c.left &&
    if c.state = .connecting then rejectionIsLast messages
    else c.answered || messages.head?.any fun parts => parts.head? = some "bye".toList

def orderly (setup : IpcClientSetup) (c : IpcClient) (move : IpcClientMove) : Bool :=
  match move with
  | .connected peer => c.socket ≠ .connecting || !setup.isQt6 || !peer.trusted || c.handlers ≤ 1
  | .disconnected => !(c.socket = .connected || c.socket = .closing) || c.state ≠ .connecting || c.retries ≠ []
  | .retry timer => kRetryLimit ≤ c.retryCount || c.retries[timer]?.all fun call => c.attempts call < kRetryLimit
  | .readyRead bytes => !(c.socket = .connected || c.socket = .closing) || c.readable (c.messages setup bytes)
  | .sendMessage message => c.state ≠ .connected || !c.genuine || !(serveAll c.peer.server c.view (written message)).2
  | _ => true

def Orderly (setup : IpcClientSetup) (c : IpcClient) (move : IpcClientMove) (_ : IpcClient) : Prop :=
  c.orderly setup move = true

instance (setup : IpcClientSetup) (c : IpcClient) (move : IpcClientMove) (t : IpcClient) :
    Decidable (Orderly setup c move t) :=
  inferInstanceAs (Decidable (_ = true))

/-- What holds between the moves. -/
structure Kept (c : IpcClient) : Prop where
  hellos : c.socket = .connected → c.peer.trusted = true ∧ c.hellos = 1
  strangers : c.peer.trusted = false → c.hellos = 0
  attempts : ∀ call, c.attempts call ≤ kRetryLimit
  fresh : ∀ call, c.calls < call → c.attempts call = 0
  attempting : c.attempting ≤ c.calls
  retries : ∀ call ∈ c.retries, call ≤ c.calls
  connecting : c.state = .connecting → c.socket = .connecting ∨ c.socket = .connected ∨ c.retries ≠ []
  handlers : c.socket = .connecting → 0 < c.handlers
  reached : c.socket = .connected → c.left = false
  closing : c.socket = .closing → c.left = true
  buffer : newline ∉ c.readBuffer
  stray : c.stray = false
  mixed : c.mixed = false
  refused : c.refused = false

theorem Kept.oneConversation (h : Kept c) : c.OneConversation where
  hellos hsocket := by
    obtain ⟨htrusted, hellos⟩ := h.hellos hsocket
    rw [htrusted, hellos, if_pos rfl]
  strangers := h.strangers
  attempts := h.attempts
  connecting := h.connecting
  stray := h.stray
  mixed := h.mixed
  refused := h.refused

theorem kept_start : Kept start := by
  refine ⟨nofun, fun _ => rfl, fun _ => Nat.zero_le _, fun _ _ => rfl, le_rfl, nofun, nofun, nofun, nofun, nofun,
    ?_, rfl, rfl, rfl⟩
  exact List.not_mem_nil

/-! Closing a socket and opening it -/

/-- The socket is no longer connected or connecting. -/
private theorem Kept.closed (h : Kept c) (state : IpcClientState) (hstate : state ≠ .connecting) :
    Kept { c.closeSocket with state := state } ∧
      (c.closeSocket.socket = .closing ∨ c.closeSocket.socket = .unconnected) := by
  cases hsocket : c.socket with
  | connected =>
    have hclosed : c.closeSocket = { c with socket := .closing, left := true } := by rw [closeSocket, hsocket]
    rw [hclosed]
    refine ⟨⟨nofun, h.strangers, h.attempts, h.fresh, h.attempting, h.retries, fun hnot => absurd hnot hstate,
      nofun, nofun, fun _ => rfl, h.buffer, h.stray, h.mixed, h.refused⟩, .inl rfl⟩
  | connecting =>
    have hclosed : c.closeSocket = { c with socket := .unconnected } := by rw [closeSocket, hsocket]
    rw [hclosed]
    refine ⟨⟨nofun, h.strangers, h.attempts, h.fresh, h.attempting, h.retries, fun hnot => absurd hnot hstate,
      nofun, nofun, nofun, h.buffer,
      h.stray, h.mixed, h.refused⟩, .inr rfl⟩
  | closing =>
    have hclosed : c.closeSocket = c := by rw [closeSocket, hsocket]
    rw [hclosed]
    exact ⟨{ h with connecting := fun hnot => absurd hnot hstate }, .inl hsocket⟩
  | unconnected =>
    have hclosed : c.closeSocket = c := by rw [closeSocket, hsocket]
    rw [hclosed]
    exact ⟨{ h with connecting := fun hnot => absurd hnot hstate }, .inr hsocket⟩

private theorem disconnectFromServer_eq : c.disconnectFromServer = { c.closeSocket with state := .unconnected } := by
  obtain ⟨_, socket, _⟩ := c
  cases socket <;> rfl

theorem Kept.disconnectFromServer (h : Kept c) : Kept c.disconnectFromServer ∧
    (c.disconnectFromServer.socket = .closing ∨ c.disconnectFromServer.socket = .unconnected) := by
  rw [disconnectFromServer_eq]
  exact h.closed .unconnected nofun

private theorem Kept.scheduleRetry (h : Kept c) : Kept c.scheduleRetry :=
  { h with
    connecting := fun _ => .inr (.inr (by simp [IpcClient.scheduleRetry]))
    retries := by
      intro call hmem
      rcases List.mem_append.mp hmem with hold | hnew
      · exact h.retries call hold
      · rw [List.mem_singleton.mp hnew]
        exact h.attempting }

theorem Kept.handleErrorOccurred (h : Kept c) : Kept c.handleErrorOccurred := by
  unfold IpcClient.handleErrorOccurred
  split
  · exact (h.closed .unconnected nofun).1.scheduleRetry
  · exact h.disconnectFromServer.1
  · exact h

/-- An attempt of a call that has one left. -/
private theorem Kept.attemptConnection (h : Kept c) (call : Nat) (hcall : call ≤ c.calls) :
    (c.retryCount < kRetryLimit → c.attempts call < kRetryLimit) → Kept (c.attemptConnection call) := by
  intro hleft
  unfold IpcClient.attemptConnection
  split
  · exact { h with connecting := nofun }
  · rename_i hlimit
    have hleft := hleft (Nat.not_le.mp hlimit)
    have hattempts : ∀ k, Function.update c.attempts call (c.attempts call + 1) k ≤ kRetryLimit := by
      intro k
      by_cases hk : k = call
      · rw [hk, Function.update_self]
        exact hleft
      · rw [Function.update_of_ne hk]
        exact h.attempts k
    have hfresh : ∀ k, c.calls < k → Function.update c.attempts call (c.attempts call + 1) k = 0 := by
      intro k hk
      rw [Function.update_of_ne (by omega)]
      exact h.fresh k hk
    unfold openSocket
    split
    · refine Kept.handleErrorOccurred ⟨h.hellos, h.strangers, hattempts, hfresh, hcall, h.retries, fun _ => .inl ‹_›,
        fun _ => Nat.succ_pos _, h.reached, h.closing, h.buffer, h.stray, h.mixed, h.refused⟩
    · refine Kept.handleErrorOccurred ⟨h.hellos, h.strangers, hattempts, hfresh, hcall, h.retries,
        fun _ => .inr (.inl ‹_›), fun _ => Nat.succ_pos _, h.reached, h.closing, h.buffer, h.stray, h.mixed, h.refused⟩
    · exact ⟨nofun, h.strangers, hattempts, hfresh, hcall, h.retries, fun _ => .inl rfl, fun _ => Nat.succ_pos _,
        nofun, nofun, h.buffer, h.stray, h.mixed, h.refused⟩
    · exact ⟨nofun, h.strangers, hattempts, hfresh, hcall, h.retries, fun _ => .inl rfl, fun _ => Nat.succ_pos _,
        nofun, nofun, h.buffer, h.stray, h.mixed, h.refused⟩

private theorem closeSocket_attempts : c.closeSocket.attempts = c.attempts := by
  unfold closeSocket
  split <;> rfl

private theorem handleErrorOccurred_attempts : c.handleErrorOccurred.attempts = c.attempts := by
  unfold IpcClient.handleErrorOccurred
  split
  · exact closeSocket_attempts
  · rw [disconnectFromServer_eq]
    exact closeSocket_attempts
  · rfl

private theorem openSocket_attempts : c.openSocket.attempts = c.attempts := by
  unfold openSocket
  split
  · exact handleErrorOccurred_attempts
  · exact handleErrorOccurred_attempts
  · rfl
  · rfl

private theorem attemptConnection_attempts (call : Nat) (hcount : c.retryCount < kRetryLimit) :
    (c.attemptConnection call).attempts call = c.attempts call + 1 := by
  unfold IpcClient.attemptConnection
  rw [if_neg (Nat.not_le.mpr hcount), openSocket_attempts]
  exact Function.update_self call _ c.attempts

/-- A call of the application. -/
private theorem Kept.connectToServer (h : Kept c) : Kept c.connectToServer := by
  unfold IpcClient.connectToServer
  split
  · exact h
  · have hclosed : ∀ (b : Bool) {d : IpcClient}, Kept d → Kept (if b then d.disconnectFromServer else d) := by
      intro b d hd
      cases b with
      | false => exact hd
      | true => exact hd.disconnectFromServer.1
    have hfirst := hclosed (c.state ≠ .unconnected) h
    simp only [decide_eq_true_eq] at hfirst
    generalize (if c.state ≠ .unconnected then c.disconnectFromServer else c) = d at hfirst ⊢
    have hsecond := hclosed (d.socket ≠ .unconnected) hfirst
    simp only [decide_eq_true_eq] at hsecond
    simp only
    generalize (if d.socket ≠ .unconnected then d.disconnectFromServer else d) = e at hsecond ⊢
    have hnew : Kept { e with retryCount := 0, calls := e.calls + 1 } :=
      { hsecond with
        fresh := fun call hcall => hsecond.fresh call (Nat.lt_of_succ_lt hcall)
        attempting := Nat.le_succ_of_le hsecond.attempting
        retries := fun call hmem => Nat.le_succ_of_le (hsecond.retries call hmem) }
    refine hnew.attemptConnection (e.calls + 1) le_rfl fun _ => ?_
    have hfresh : e.attempts (e.calls + 1) = 0 := hsecond.fresh _ (Nat.lt_succ_self _)
    exact hfresh ▸ Nat.succ_pos 2

/-! A connection -/

private theorem handleConnected_trusted (setup : IpcClientSetup) (n : Nat) {b : IpcClient}
    (htrusted : b.peer.trusted = true) :
    ∃ view, (handleConnected setup)^[n] b = { b with hellos := b.hellos + n, view := view } := by
  induction n with
  | zero => exact ⟨b.view, rfl⟩
  | succ n ih =>
    obtain ⟨view, hview⟩ := ih
    rw [Function.iterate_succ_apply', hview, handleConnected, if_neg (by simp [htrusted])]
    exact ⟨_, rfl⟩

private theorem handleConnected_stranger (n : Nat) {b : IpcClient} (hstranger : b.peer.trusted = false) (hb : Kept b) :
    Kept ((handleConnected setup)^[n] b) := by
  induction n generalizing b with
  | zero => exact hb
  | succ n ih =>
    have hclosed : b.handleConnected setup = b.disconnectFromServer := if_pos (by rw [hstranger]; rfl)
    rw [Function.iterate_succ_apply, hclosed]
    refine ih ?_ hb.disconnectFromServer.1
    rw [disconnectFromServer_eq, closeSocket]
    split <;> exact hstranger

/-- The handlers of a connection write one hello, unless one of them is left of an attempt that failed. -/
private theorem Kept.connected (h : Kept c) (hsocket : c.socket = .connecting) (peer : IpcPeer) :
    (c.orderly setup (.connected peer) = true → Kept (c.connected setup peer)) ∧
      (c.orderly setup (.connected peer) = false → ¬ (c.connected setup peer).OneConversation) := by
  have hhandlers := h.handlers hsocket
  rw [orderly, IpcClient.connected, hsocket]
  obtain ⟨called, hcalled⟩ : ∃ called, called = if setup.isQt6 then c.handlers else min c.handlers 1 := ⟨_, rfl⟩
  have hpos : 0 < called := by
    rw [hcalled]
    split <;> omega
  rw [← hcalled]
  rcases Bool.eq_false_or_eq_true peer.trusted with htrusted | hstranger
  · obtain ⟨view, hview⟩ := handleConnected_trusted setup called (b := { c with
      socket := .connected
      handlers := 0
      peer := peer
      view := ⟨false, false⟩
      hellos := 0
      left := false
      answered := false
      genuine := true
      foreign := c.foreign || c.readBuffer ≠ [] }) htrusted
    rw [hview, htrusted]
    constructor
    · intro hok
      have hone : called = 1 := by
        have hok : setup.isQt6 = false ∨ c.handlers ≤ 1 := by simpa using hok
        rw [hcalled]
        rcases hok with hqt | hle
        · rw [hqt, if_neg Bool.false_ne_true]
          omega
        · split <;> omega
      exact ⟨fun _ => ⟨htrusted, by rw [hone]⟩, fun hnot => (by cases htrusted.symm.trans hnot), h.attempts, h.fresh,
        h.attempting, h.retries, fun _ => .inr (.inl rfl), nofun, fun _ => rfl, nofun, h.buffer, h.stray, h.mixed,
        h.refused⟩
    · intro hbad hone
      have hbad : setup.isQt6 = true ∧ 1 < c.handlers := by simpa using hbad
      have hellos : 0 + called = if peer.trusted then 1 else 0 := hone.hellos rfl
      rw [htrusted, hcalled, hbad.1, if_pos rfl, if_pos rfl] at hellos
      omega
  · refine ⟨fun _ => ?_, fun hnot => by simp [hstranger] at hnot⟩
    obtain ⟨n, rfl⟩ : ∃ n, called = n + 1 := ⟨called - 1, by omega⟩
    rw [Function.iterate_succ_apply, handleConnected, if_pos (by simp [hstranger]), disconnectFromServer_eq]
    refine handleConnected_stranger n hstranger ?_
    exact ⟨nofun, fun _ => rfl, h.attempts, h.fresh, h.attempting, h.retries, nofun, nofun, nofun, fun _ => rfl,
      h.buffer, h.stray, h.mixed, h.refused⟩

private theorem Kept.disconnected (h : Kept c) :
    (c.state ≠ .connecting ∨ c.retries ≠ [] → Kept { c with socket := .unconnected, left := true }.handleDisconnected) ∧
      (c.state = .connecting → c.retries = [] →
        ¬ OneConversation { c with socket := .unconnected, left := true }.handleDisconnected) := by
  have hclosed : ∀ state, (state = .connecting → c.retries ≠ []) →
      Kept { c with socket := .unconnected, left := true, state := state } := fun state hstate =>
    ⟨nofun, h.strangers, h.attempts, h.fresh, h.attempting, h.retries, fun hnow => .inr (.inr (hstate hnow)), nofun,
      nofun, nofun, h.buffer, h.stray, h.mixed, h.refused⟩
  unfold handleDisconnected
  constructor
  · intro hok
    split
    · rename_i hstate
      exact hclosed c.state fun _ => hok.resolve_left fun hnot => hnot hstate
    · exact hclosed .unconnected nofun
  · intro hstate hretries hone
    rw [if_pos hstate] at hone
    rcases hone.connecting hstate with hsocket | hsocket | hnot
    · cases hsocket
    · cases hsocket
    · exact hnot hretries

/-! Messages -/

private theorem closeSocket_stray : c.closeSocket.stray = c.stray ∧ c.closeSocket.mixed = c.mixed := by
  unfold closeSocket
  split <;> exact ⟨rfl, rfl⟩

private theorem disconnectFromServer_stray :
    c.disconnectFromServer.stray = c.stray ∧ c.disconnectFromServer.mixed = c.mixed := by
  rw [disconnectFromServer_eq]
  exact closeSocket_stray

private theorem handleHandshakeMessage_stray (parts : List Str) :
    (c.handleHandshakeMessage parts).stray = c.stray ∧ (c.handleHandshakeMessage parts).mixed = c.mixed := by
  unfold handleHandshakeMessage
  split
  · exact ⟨rfl, rfl⟩
  · split
    · exact disconnectFromServer_stray
    · split
      · exact ⟨rfl, rfl⟩
      · split
        · exact ⟨rfl, rfl⟩
        · split
          · exact disconnectFromServer_stray
          · exact ⟨rfl, rfl⟩

/-- A message that was processed astray stays so, and the messages have no part in what was mixed. -/
private theorem handleMessage_stray (parts : List Str) :
    (c.stray = true → (c.handleMessage parts).1.stray = true) ∧ (c.handleMessage parts).1.mixed = c.mixed := by
  unfold handleMessage
  split
  · exact ⟨id, rfl⟩
  · have hkept : c.stray = true → (c.stray || c.left) = true := fun h => by rw [h, Bool.true_or]
    simp only
    split
    · have hsame := handleHandshakeMessage_stray (c := { c with stray := c.stray || c.left })
      exact ⟨fun h => (hsame _).1.trans (hkept h), (hsame _).2⟩
    · split
      · have hsame := disconnectFromServer_stray (c := { c with stray := c.stray || c.left })
        exact ⟨fun h => hsame.1.trans (hkept h), hsame.2⟩
      · refine ⟨fun h => ?_, rfl⟩
        have hnow : (c.stray || c.left || !c.answered) = true := by rw [hkept h, Bool.true_or]
        exact hnow

private theorem handleMessages_stray (messages : List (List Str)) :
    (c.stray = true → (c.handleMessages messages).1.stray = true) ∧
      (c.handleMessages messages).1.mixed = c.mixed := by
  induction messages generalizing c with
  | nil => exact ⟨id, rfl⟩
  | cons parts more ih =>
    obtain ⟨hstray, hmixed⟩ := handleMessage_stray (c := c) parts
    rw [handleMessages]
    generalize c.handleMessage parts = result at hstray hmixed ⊢
    obtain ⟨d, goesOn⟩ := result
    cases goesOn with
    | false => exact ⟨hstray, hmixed⟩
    | true => exact ⟨fun h => ih.1 (hstray h), ih.2.trans hmixed⟩

/-- Nothing may be processed after the client has left. -/
private theorem handleMessages_left (hleft : c.left = true) {parts : List Str} (hparts : parts ≠ [])
    (more : List (List Str)) : (c.handleMessages (parts :: more)).1.stray = true := by
  have hstray : (c.handleMessage parts).1.stray = true := by
    obtain ⟨command, values, rfl⟩ := List.exists_cons_of_ne_nil hparts
    have hnow : (c.stray || c.left) = true := by rw [hleft, Bool.or_true]
    unfold handleMessage
    simp only
    split
    · exact (handleHandshakeMessage_stray _).1.trans hnow
    · split
      · exact disconnectFromServer_stray.1.trans hnow
      · have hnow : (c.stray || c.left || !c.answered) = true := by rw [hnow, Bool.true_or]
        exact hnow
  rw [handleMessages]
  generalize c.handleMessage parts = result at hstray ⊢
  obtain ⟨d, goesOn⟩ := result
  cases goesOn with
  | false => exact hstray
  | true => exact (handleMessages_stray more).1 hstray

private theorem stray_eq (hleft : c.left = false) : { c with stray := c.stray || c.left } = c := by
  have hnow : (c.stray || c.left) = c.stray := by rw [hleft, Bool.or_false]
  rw [hnow]

/-- Once the hello was answered every message may come. -/
private theorem Kept.commands (h : Kept c) (hleft : c.left = false) (hstate : c.state ≠ .connecting)
    (hanswered : c.answered = true) (messages : List (List Str)) : Kept (c.handleMessages messages).1 := by
  induction messages with
  | nil => exact h
  | cons parts more ih =>
    have hmessage : c.handleMessage parts = (c, true) ∨ c.handleMessage parts = (c.disconnectFromServer, false) := by
      unfold handleMessage
      split
      · exact .inl rfl
      · simp only [stray_eq hleft]
        rw [if_neg hstate]
        split
        · exact .inr rfl
        · have hnow : (c.stray || !c.answered) = c.stray := by rw [hanswered, Bool.not_true, Bool.or_false]
          refine .inl ?_
          rw [processCommand, hnow]
    rw [handleMessages]
    rcases hmessage with hmessage | hmessage
    · rw [hmessage]
      exact ih
    · rw [hmessage]
      exact h.disconnectFromServer.1

private theorem handshake_cases {parts : List Str} (hparts : parts ≠ []) :
    (rejects parts = true ∧ c.handleHandshakeMessage parts = c.disconnectFromServer) ∨
      (rejects parts = false ∧ accepts parts = true ∧ ∃ genuine, c.handleHandshakeMessage parts =
        { c with state := .connected, answered := true, genuine := genuine }) ∨
      (rejects parts = false ∧ accepts parts = false ∧ c.handleHandshakeMessage parts = c) := by
  obtain ⟨command, values, rfl⟩ := List.exists_cons_of_ne_nil hparts
  have herror : "error".toList ≠ "hello".toList := by decide
  have hmismatch : "versionMismatch".toList ≠ "hello".toList := by decide
  have hother : "versionMismatch".toList ≠ "error".toList := by decide
  unfold handleHandshakeMessage rejects accepts
  generalize "error".toList = error at herror hother ⊢
  generalize "versionMismatch".toList = versionMismatch at hmismatch hother ⊢
  generalize "hello".toList = hello at herror hmismatch ⊢
  simp only [List.head?_cons, Option.some.injEq, List.cons.injEq]
  by_cases hrejected : command = error
  · exact .inl ⟨by simp [hrejected], if_pos hrejected⟩
  rw [if_neg hrejected]
  by_cases hversion : command = versionMismatch
  · subst hversion
    rw [if_pos rfl]
    exact .inr (.inl ⟨by simp [hother, hmismatch], by simp, _, rfl⟩)
  rw [if_neg hversion]
  by_cases hhello : command = hello
  · rw [if_neg (not_not.mpr hhello)]
    by_cases hvalues : values = []
    · exact .inl ⟨by simp [hhello, hvalues], if_pos hvalues⟩
    · rw [if_neg hvalues]
      exact .inr (.inl ⟨by simp [hrejected, hvalues], by simp [hhello, hvalues], _, rfl⟩)
  · rw [if_pos hhello]
    exact .inr (.inr ⟨by simp [hrejected, hhello], by simp [hversion, hhello], rfl⟩)

private theorem left_of_connected (hsocket : c.socket = .connected) : c.disconnectFromServer.left = true := by
  rw [disconnectFromServer_eq, closeSocket, hsocket]

/-- The messages that come while the hello waits for its answer. -/
private theorem Kept.handshake (h : Kept c) (hsocket : c.socket = .connected) (hstate : c.state = .connecting)
    (messages : List (List Str)) (hparts : ∀ parts ∈ messages, parts ≠ []) :
    (rejectionIsLast messages = true → Kept (c.handleMessages messages).1) ∧
      (rejectionIsLast messages = false → (c.handleMessages messages).1.stray = true) := by
  have hleft := h.reached hsocket
  induction messages with
  | nil => exact ⟨fun _ => h, fun hnot => by cases hnot⟩
  | cons parts more ih =>
    have hne := hparts parts List.mem_cons_self
    have hmore : ∀ parts ∈ more, parts ≠ [] := fun parts hmem => hparts parts (List.mem_cons_of_mem _ hmem)
    have hmessage : c.handleMessage parts = (c.handleHandshakeMessage parts, true) := by
      obtain ⟨command, values, rfl⟩ := List.exists_cons_of_ne_nil hne
      unfold handleMessage
      simp only [stray_eq hleft]
      rw [if_pos hstate]
    rw [handleMessages, hmessage, rejectionIsLast]
    rcases handshake_cases (c := c) hne with ⟨hrejects, hresult⟩ | ⟨hrejects, haccepts, genuine, hresult⟩ |
      ⟨hrejects, haccepts, hresult⟩
    · rw [hresult, hrejects, if_pos rfl]
      cases more with
      | nil => exact ⟨fun _ => h.disconnectFromServer.1, fun hnot => by cases hnot⟩
      | cons next more =>
        refine ⟨fun hnot => (by cases hnot), fun _ => ?_⟩
        exact handleMessages_left (left_of_connected hsocket) (hmore next List.mem_cons_self) more
    · rw [hresult, hrejects, haccepts]
      refine ⟨fun _ => ?_, fun hnot => by cases hnot⟩
      have hconnected : Kept { c with state := .connected, answered := true, genuine := genuine } :=
        { h with connecting := nofun }
      exact hconnected.commands hleft nofun rfl more
    · rw [hresult, hrejects, haccepts]
      exact ih hmore

private theorem splitIpcMessage_ne_nil (message : Str) : splitIpcMessage message ≠ [] := by
  unfold splitIpcMessage
  simp only
  split <;> exact List.cons_ne_nil _ _

/-- What the loop makes of the messages. -/
private theorem Kept.handleMessages (h : Kept c) (hsocket : c.socket = .connected ∨ c.socket = .closing)
    (hforeign : c.foreign = false) (messages : List (List Str)) (hparts : ∀ parts ∈ messages, parts ≠ []) :
    (c.readable messages = true → Kept (c.handleMessages messages).1) ∧
      (c.readable messages = false → (c.handleMessages messages).1.stray = true) := by
  cases messages with
  | nil => exact ⟨fun _ => h, fun hnot => by cases hnot⟩
  | cons parts more =>
    have hne := hparts parts List.mem_cons_self
    rw [readable, hforeign]
    rcases hsocket with hsocket | hsocket
    · have hleft := h.reached hsocket
      rw [hleft]
      by_cases hstate : c.state = .connecting
      · rw [if_pos hstate]
        exact h.handshake hsocket hstate (parts :: more) hparts
      · rw [if_neg hstate]
        rcases Bool.eq_false_or_eq_true c.answered with hanswered | hanswered
        · rw [hanswered]
          exact ⟨fun _ => h.commands hleft hstate hanswered _, fun hnot => by cases hnot⟩
        · obtain ⟨command, values, rfl⟩ := List.exists_cons_of_ne_nil hne
          rw [hanswered, IpcClient.handleMessages]
          unfold handleMessage
          simp only [stray_eq hleft]
          rw [if_neg hstate]
          by_cases hbye : command = "bye".toList
          · rw [if_pos hbye]
            exact ⟨fun _ => h.disconnectFromServer.1, fun hnot => by simp [hbye] at hnot⟩
          · have hother : (List.head? ((command :: values) :: more)).any
                (fun parts => parts.head? = some "bye".toList) = false := decide_eq_false fun hnot =>
              hbye (Option.some.inj hnot)
            rw [if_neg hbye, hother]
            refine ⟨fun hnot => (by cases hnot), fun _ => ?_⟩
            refine (handleMessages_stray more).1 ?_
            have hnow : (c.stray || !c.answered) = true := by rw [hanswered, Bool.not_false, Bool.or_true]
            exact hnow
    · have hleft := h.closing hsocket
      rw [hleft]
      exact ⟨fun hnot => by simp at hnot, fun _ => handleMessages_left hleft hne more⟩

/-- The bytes that come on a connection. -/
private theorem Kept.handleReadyRead (h : Kept c) (hsocket : c.socket = .connected ∨ c.socket = .closing)
    (bytes : Bytes) :
    (c.readable (c.messages setup bytes) = true → Kept (c.handleReadyRead setup bytes)) ∧
      (c.readable (c.messages setup bytes) = false → ¬ (c.handleReadyRead setup bytes).OneConversation) := by
  have hrest := not_mem_lines_rest newline (c.readBuffer ++ bytes)
  have hlines : ((lines newline (c.readBuffer ++ bytes)).1.map fun line => splitIpcMessage (setup.fromUtf8 line)) =
      c.messages setup bytes := rfl
  have hparts : ∀ parts ∈ c.messages setup bytes, parts ≠ [] := by
    intro parts hmem
    obtain ⟨line, -, rfl⟩ := List.mem_map.mp hmem
    exact splitIpcMessage_ne_nil _
  have hempty : (lines newline (c.readBuffer ++ bytes)).1.isEmpty = (c.messages setup bytes).isEmpty := by
    rw [messages, List.isEmpty_map]
  unfold IpcClient.handleReadyRead
  simp only [hlines, hempty]
  generalize (lines newline (c.readBuffer ++ bytes)).2 = rest at hrest ⊢
  generalize c.messages setup bytes = messages at hparts ⊢
  have hkept : ∀ {d : IpcClient} (goesOn : Bool), Kept d →
      Kept (if goesOn then { d with readBuffer := rest } else d) := by
    intro d goesOn hd
    cases goesOn with
    | false => exact hd
    | true => exact { hd with buffer := hrest }
  have hsame : ∀ {d : IpcClient} (goesOn : Bool),
      (if goesOn then { d with readBuffer := rest } else d).stray = d.stray ∧
        (if goesOn then { d with readBuffer := rest } else d).mixed = d.mixed := by
    intro d goesOn
    cases goesOn <;> exact ⟨rfl, rfl⟩
  rcases Bool.eq_false_or_eq_true (c.foreign && !messages.isEmpty) with hmixed | hclean
  · obtain ⟨hforeign, hsome⟩ := Bool.and_eq_true_iff.mp hmixed
    have hnotReadable : c.readable messages = false := by
      rw [readable, hforeign, (by simpa using hsome : messages.isEmpty = false)]
      rfl
    refine ⟨fun hnot => (by cases hnotReadable.symm.trans hnot), fun _ hone => ?_⟩
    have hnow := hone.mixed
    rw [(hsame _).2, (handleMessages_stray messages).2, hmixed] at hnow
    simp at hnow
  · obtain ⟨d, hd⟩ : ∃ d, d = { c with
        readBuffer := []
        mixed := c.mixed || (c.foreign && !messages.isEmpty)
        foreign := c.foreign && !(!messages.isEmpty) } := ⟨_, rfl⟩
    have hstart : Kept d := by
      rw [hd, hclean, Bool.or_false]
      exact { h with buffer := List.not_mem_nil }
    rw [← hd]
    cases messages with
    | nil =>
      refine ⟨fun _ => hkept true hstart, fun hnot => by cases hnot⟩
    | cons parts more =>
      have hforeign : c.foreign = false := by simpa using hclean
      have hreadable : d.readable (parts :: more) = c.readable (parts :: more) := by
        rw [hd, readable, readable, hforeign]
        rfl
      have hread := hstart.handleMessages (by rw [hd]; exact hsocket) (by rw [hd]; exact congrArg (· && _) hforeign)
        (parts :: more) hparts
      rw [hreadable] at hread
      refine ⟨fun hok => hkept _ (hread.1 hok), fun hbad hone => ?_⟩
      have hnow := hone.stray
      rw [(hsame _).1, hread.2 hbad] at hnow
      cases hnow

private theorem Kept.sendMessage (h : Kept c) (message : Str) :
    (c.orderly setup (.sendMessage message) = true → Kept (c.sendMessage message)) ∧
      (c.orderly setup (.sendMessage message) = false → ¬ (c.sendMessage message).OneConversation) := by
  unfold IpcClient.sendMessage
  split
  · rename_i hstate
    exact ⟨fun _ => h, fun hnot => by simp [orderly, hstate] at hnot⟩
  · rename_i hstate
    rw [orderly]
    generalize serveAll c.peer.server c.view (written message) = result
    obtain ⟨view, refuses⟩ := result
    have hconnected : c.state = .connected := not_not.mp hstate
    simp only [hconnected, ne_eq, not_true, decide_false, Bool.false_or, h.refused]
    constructor
    · intro hok
      have hrefused : (c.genuine && refuses) = false := by
        cases hgenuine : c.genuine
        · rfl
        · rw [hgenuine] at hok
          simpa using hok
      rw [hrefused]
      exact { h with connecting := nofun, refused := rfl }
    · intro hbad hone
      have hrefused : (c.genuine && refuses) = false := hone.refused
      simp only [Bool.or_eq_false_iff, Bool.not_eq_false'] at hbad
      rw [hbad.1, hbad.2] at hrefused
      cases hrefused

/-- An attempt that fails, or one that is not waited for any more. -/
private theorem Kept.connectionLost (h : Kept c) : Kept { c with socket := .unconnected }.handleErrorOccurred := by
  have hlost : ∀ state, state ≠ .connecting → Kept { c with socket := .unconnected, state := state } :=
    fun state hstate => ⟨nofun, h.strangers, h.attempts, h.fresh, h.attempting, h.retries,
      fun hnot => absurd hnot hstate, nofun, nofun, nofun, h.buffer, h.stray, h.mixed, h.refused⟩
  unfold IpcClient.handleErrorOccurred
  split
  · exact (hlost .unconnected nofun).scheduleRetry
  · exact hlost .unconnected nofun
  · rename_i hstate _
    exact hlost c.state hstate

private theorem kept_step (h : Kept c) (move : IpcClientMove) :
    (c.orderly setup move = true → Kept (step setup c move)) ∧
      (c.orderly setup move = false → ¬ (step setup c move).OneConversation) := by
  cases move with
  | connectToServer => exact ⟨fun _ => h.connectToServer, fun hnot => by cases hnot⟩
  | disconnectFromServer => exact ⟨fun _ => h.disconnectFromServer.1, fun hnot => by cases hnot⟩
  | connected peer =>
    rw [step]
    split
    · exact h.connected ‹_› peer
    · rename_i hsocket
      exact ⟨fun _ => h, fun hnot => by simp [orderly, hsocket] at hnot⟩
  | errorOccurred =>
    refine ⟨fun _ => ?_, fun hnot => by cases hnot⟩
    rw [step]
    split
    · exact h.connectionLost
    · exact h.handleErrorOccurred
  | disconnected =>
    rw [step, orderly]
    split
    · rename_i hsocket
      have hopen : (decide (c.socket = .connected) || decide (c.socket = .closing)) = true := by simpa using hsocket
      obtain ⟨hgood, hbad⟩ := h.disconnected
      rw [hopen, Bool.not_true, Bool.false_or]
      refine ⟨fun hok => hgood (by simpa using hok), fun hnot => ?_⟩
      obtain ⟨hstate, hretries⟩ := Bool.or_eq_false_iff.mp hnot
      exact hbad (by simpa using hstate) (by simpa using hretries)
    · rename_i hsocket
      have hopen : (decide (c.socket = .connected) || decide (c.socket = .closing)) = false := by simpa using hsocket
      rw [hopen]
      exact ⟨fun _ => h, fun hnot => by cases hnot⟩
  | retry timer =>
    rw [step]
    split
    · rename_i hnone
      exact ⟨fun _ => h, fun hnot => by simp [orderly, hnone] at hnot⟩
    · rename_i call hcall
      have hmem : call ∈ c.retries := List.mem_of_getElem? hcall
      have hidle : Kept { c with retries := c.retries.eraseIdx timer, state := .unconnected } :=
        { h with connecting := nofun, retries := fun k hk => h.retries k (List.mem_of_mem_eraseIdx hk) }
      have horderly : c.orderly setup (.retry timer) =
          (kRetryLimit ≤ c.retryCount || c.attempts call < kRetryLimit) := by
        rw [orderly, hcall]
        rfl
      rw [horderly]
      constructor
      · intro hok
        refine hidle.attemptConnection call (h.retries call hmem) fun hcount => ?_
        have hok : kRetryLimit ≤ c.retryCount ∨ c.attempts call < kRetryLimit := by simpa using hok
        exact hok.resolve_left (Nat.not_le.mpr hcount)
      · intro hbad hone
        have hbad : c.retryCount < kRetryLimit ∧ kRetryLimit ≤ c.attempts call := by simpa using hbad
        have hattempts := hone.attempts call
        have hmore := attemptConnection_attempts (c := { c with retries := c.retries.eraseIdx timer }) call hbad.1
        rw [hmore] at hattempts
        exact absurd hbad.2 (Nat.not_le.mpr hattempts)
  | readyRead bytes =>
    rw [step, orderly]
    split
    · rename_i hsocket
      have hopen : (decide (c.socket = .connected) || decide (c.socket = .closing)) = true := by simpa using hsocket
      rw [hopen, Bool.not_true, Bool.false_or]
      exact h.handleReadyRead hsocket bytes
    · rename_i hsocket
      have hopen : (decide (c.socket = .connected) || decide (c.socket = .closing)) = false := by simpa using hsocket
      rw [hopen]
      exact ⟨fun _ => h, fun hnot => by cases hnot⟩
  | sendMessage message => exact h.sendMessage message


/-- Every conversation is as it should be, exactly when all the moves of a run are orderly. -/
theorem always_oneConversation_iff (setup : IpcClientSetup) (moves : List IpcClientMove) :
    Always OneConversation (runTrace (step setup) start moves) ↔
      EachStep (Orderly setup) start (runTrace (step setup) start moves) := by
  rw [← eachStep_state_iff OneConversation start]
  refine (Trace.eachStep_iff Kept ?_ ?_ (trace_runTrace (step setup) start moves) kept_start).symm
  · rintro c move t hc rfl
    refine ⟨fun hgood => ((kept_step hc move).1 hgood).oneConversation, fun hone => ?_⟩
    by_contra hbad
    exact (kept_step hc move).2 (Bool.eq_false_iff.mpr hbad) hone
  · rintro c move t hc rfl hgood
    exact (kept_step hc move).1 hgood

/-- An attempt fails and the next succeeds: both handlers write the hello. -/
theorem hello_twice : ¬ Always OneConversation (runTrace
    (step ⟨"1.0".toList, fun bytes => bytes.map fun b => Char.ofNat b.toNat, true⟩) start
    [.connectToServer, .errorOccurred, .retry 0,
      .connected ⟨true, "token".toList, ⟨"token".toList, "1.0".toList, fun _ => [], fun _ _ => []⟩⟩]) := by
  intro h
  simp only [runTrace, always_cons] at h
  have hellos := h.2.2.2.1.hellos (by decide)
  exact absurd hellos (by decide)

end IpcClient
end Synergy.Ipc
