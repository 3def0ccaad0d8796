import OnlineAuction.Realtime.ConnectionManager

/-! A live socket is never lost from the registry: unless a fan-out drops a key
under which another list than its own has come to be registered, whoever is
connected stays in the list that the next fan-out will walk. -/

namespace OnlineAuction.Realtime

variable {Socket Message : Type}

/-- The manager and the calls of `_fan_out` in progress, with a history: who has
connected and not been disconnected since, and whose send has ever failed. -/
structure Server (Socket Message : Type) where
  manager : ConnectionManager Socket
  fanOuts : Nat → Option (FanOut Socket Message)
  connected : Channel → Socket → Bool
  failed : Channel → Socket → Bool

/-- The calls of the manager run to completion, but for `_fan_out`, which yields at
every send. A task that is cancelled in one of them leaves the call there. -/
inductive Event (Socket Message : Type) where
  | connect (websocket : Socket) (key : Channel)
  | disconnect (websocket : Socket) (key : Channel)
  | fanOut (call : Nat) (key : Channel) (message : Message)
  | answer (call : Nat) (sent : Bool)
  | cancel (call : Nat)

namespace Server

def initial : Server Socket Message :=
  ⟨.initial, fun _ => none, fun _ _ => false, fun _ _ => false⟩

/-- It has completed `connect` or `connect_user`, has not been disconnected and
has not failed a send. -/
def live (s : Server Socket Message) (key : Channel) (websocket : Socket) : Prop :=
  s.connected key websocket = true ∧ s.failed key websocket = false

def leave (s : Server Socket Message) (call : Nat) : Nat → Option (FanOut Socket Message) :=
  Function.update s.fanOuts call none

end Server

/-- A live socket is in the list registered under its key, where the next fan-out
to the key finds it, and no key has an empty list. -/
structure LiveSocketsKept (s : Server Socket Message) : Prop where
  registered : ∀ key websocket, s.live key websocket → websocket ∈ s.manager.bucket key
  reached : ∀ key websocket (message : Message), s.live key websocket →
    ∃ f, s.manager.fanOut key message = some f ∧ websocket ∈ f.waiting
  filled : ∀ key, (s.manager.connections key).isSome → s.manager.bucket key ≠ []

/-- A fan-out's list is registered under its key or not at all, and whoever it is
going to drop has failed a send. -/
structure FanOut.Ok (s : Server Socket Message) (f : FanOut Socket Message) : Prop where
  made : f.list < s.manager.lists.serial
  owner : ∀ key, s.manager.connections key = some f.list → key = f.key
  failed : ∀ connection ∈ f.dead, s.failed f.key connection = true

structure Inv (s : Server Socket Message) : Prop where
  sound : s.manager.Sound
  registered : ∀ key websocket, s.live key websocket → websocket ∈ s.manager.bucket key
  fanOuts : ∀ call f, s.fanOuts call = some f → f.Ok s

variable {s s' : Server Socket Message}

/-- What a fan-out relies on: no list it could hold is registered anew, and a
failure is not forgotten. -/
theorem FanOut.Ok.mono {f : FanOut Socket Message} (h : f.Ok s)
    (hSerial : s.manager.lists.serial ≤ s'.manager.lists.serial)
    (hNamed : ∀ key list, s'.manager.connections key = some list →
      s.manager.connections key = some list ∨ s.manager.lists.serial ≤ list)
    (hFailed : ∀ key connection, s.failed key connection = true →
      s'.failed key connection = true) : f.Ok s' where
  made := h.made.trans_le hSerial
  owner key hKey := by
    rcases hNamed key f.list hKey with hOld | hNew
    · exact h.owner key hOld
    · exact absurd (h.made.trans_le hNew) (lt_irrefl _)
  failed connection hDead := hFailed _ _ (h.failed connection hDead)

/-- The part of the invariant that no run breaks. -/
structure Placed (s : Server Socket Message) : Prop where
  sound : s.manager.Sound
  made : ∀ call f, s.fanOuts call = some f → f.list < s.manager.lists.serial
  owner : ∀ call f, s.fanOuts call = some f →
    ∀ key, s.manager.connections key = some f.list → key = f.key

theorem initial_placed : Placed (Server.initial : Server Socket Message) where
  sound := ConnectionManager.initial_sound
  made _ _ hCall := by cases hCall
  owner _ _ hCall := by cases hCall

/-- Placement survives steps that keep the lists and their owners. -/
theorem Placed.mono (h : Placed s) (hSound : s'.manager.Sound)
    (hSerial : s.manager.lists.serial ≤ s'.manager.lists.serial)
    (hNamed : ∀ key list, s'.manager.connections key = some list →
      s.manager.connections key = some list ∨ s.manager.lists.serial ≤ list)
    (hCalls : ∀ call f, s'.fanOuts call = some f →
      ∃ g, s.fanOuts call = some g ∧ f.list = g.list ∧ f.key = g.key) : Placed s' where
  sound := hSound
  made call f hCall := by
    obtain ⟨g, hOld, hList, -⟩ := hCalls call f hCall
    rw [hList]
    exact (h.made call g hOld).trans_le hSerial
  owner call f hCall key hKey := by
    obtain ⟨g, hOld, hList, hSame⟩ := hCalls call f hCall
    rw [hList] at hKey
    rw [hSame]
    rcases hNamed key g.list hKey with hBefore | hNew
    · exact h.owner call g hOld key hBefore
    · exact absurd ((h.made call g hOld).trans_le hNew) (lt_irrefl _)

theorem initial_inv : Inv (Server.initial : Server Socket Message) where
  sound := ConnectionManager.initial_sound
  registered _ _ hLive := by cases hLive.1
  fanOuts _ _ hCall := by cases hCall

/-- The invariant gives the claim on live sockets. -/
theorem Inv.liveSocketsKept (h : Inv s) : LiveSocketsKept s where
  registered := h.registered
  reached key websocket message hLive := by
    have hIn := h.registered key websocket hLive
    have hFilled : ¬(s.manager.bucket key).isEmpty = true := by
      rw [List.isEmpty_iff]
      exact List.ne_nil_of_mem hIn
    cases hKey : s.manager.connections key with
    | none => simp [ConnectionManager.bucket_of_none hKey] at hIn
    | some list =>
        refine ⟨⟨key, list, message, s.manager.bucket key, []⟩, ?_, hIn⟩
        simp only [ConnectionManager.fanOut, hKey, if_neg hFilled]
  filled key hKey := by
    obtain ⟨list, hKey⟩ := Option.isSome_iff_exists.mp hKey
    exact h.sound.bucket_ne_nil hKey

/-- A new fan-out keeps the invariant. -/
theorem Inv.fanOut (h : Inv s) (call : Nat) (key : Channel) (message : Message) :
    Inv { s with
      fanOuts := Function.update s.fanOuts call (s.manager.fanOut key message) } where
  sound := h.sound
  registered := h.registered
  fanOuts call' f hCall := by
    by_cases hSame : call' = call
    · subst hSame
      simp only [Function.update_self, ConnectionManager.fanOut] at hCall
      split at hCall
      next => cases hCall
      next list hKey =>
        split_ifs at hCall
        obtain rfl := Option.some.inj hCall
        obtain ⟨sockets, hList, _⟩ := h.sound.filled key list hKey
        exact ⟨Table.lt_serial hList, fun key' hKey' => h.sound.apart key' key list hKey' hKey,
          fun _ hDead => by cases hDead⟩
    · have hOk := h.fanOuts call' f (by simpa [hSame] using hCall)
      exact ⟨hOk.made, hOk.owner, hOk.failed⟩

/-- A cancelled fan-out keeps the invariant. -/
theorem Inv.cancel (h : Inv s) (call : Nat) : Inv { s with fanOuts := s.leave call } where
  sound := h.sound
  registered := h.registered
  fanOuts call' f hCall := by
    by_cases hSame : call' = call
    · simp [Server.leave, hSame] at hCall
    · have hOk := h.fanOuts call' f (by simpa [Server.leave, hSame] using hCall)
      exact ⟨hOk.made, hOk.owner, hOk.failed⟩

variable [DecidableEq Socket]

def record (history : Channel → Socket → Bool) (key : Channel) (websocket : Socket) (value : Bool) :
    Channel → Socket → Bool := fun key' websocket' =>
  if key' = key ∧ websocket' = websocket then value else history key' websocket'

namespace Server

/-- The send just answered has failed. -/
def markFailed (s : Server Socket Message) (f : FanOut Socket Message) (sent : Bool) :
    Channel → Socket → Bool := fun key websocket =>
  s.failed key websocket || (!sent && key = f.key && f.waiting.head? = some websocket)

/-- The answer to the send the call waits for; the last one ends the call. -/
def answer (s : Server Socket Message) (call : Nat) (f : FanOut Socket Message) (sent : Bool) :
    Server Socket Message :=
  let next := f.next sent
  let failed := s.markFailed f sent
  if next.waiting.isEmpty then
    { s with manager := s.manager.prune next, fanOuts := s.leave call, failed := failed }
  else { s with fanOuts := Function.update s.fanOuts call (some next), failed := failed }

/-- The registry write at the end of `connect` or `connect_user`. -/
def connect (s : Server Socket Message) (websocket : Socket) (key : Channel) :
    Server Socket Message :=
  { s with
    manager := s.manager.append websocket key
    connected := record s.connected key websocket true }

/-- `disconnect` or `disconnect_user`. -/
def disconnect (s : Server Socket Message) (websocket : Socket) (key : Channel) :
    Server Socket Message :=
  { s with
    manager := s.manager.remove websocket key
    connected := record s.connected key websocket false }

end Server

def step (s : Server Socket Message) : Event Socket Message → Option (Server Socket Message)
  | .connect websocket key => some (s.connect websocket key)
  | .disconnect websocket key => some (s.disconnect websocket key)
  | .fanOut call key message =>
      if (s.fanOuts call).isNone then
        some { s with fanOuts := Function.update s.fanOuts call (s.manager.fanOut key message) }
      else none
  | .answer call sent => (s.fanOuts call).map fun f => s.answer call f sent
  | .cancel call => some { s with fanOuts := s.leave call }

/-- A fan-out ends with its list empty while another list is registered under the key. -/
def dropsAnother (s : Server Socket Message) : Event Socket Message → Bool
  | .answer call sent => (s.fanOuts call).any fun f =>
      (f.next sent).waiting.isEmpty && (s.manager.pruned (f.next sent)).isEmpty &&
        (s.manager.connections f.key).any fun named => named ≠ f.list
  | _ => false

def DropsOwnList (s : Server Socket Message) (e : Event Socket Message) : Prop :=
  dropsAnother s e = false

instance (s : Server Socket Message) (e : Event Socket Message) : Decidable (DropsOwnList s e) :=
  inferInstanceAs (Decidable (dropsAnother s e = false))

variable {s : Server Socket Message}

/-- A failure once marked stays marked. -/
theorem markFailed_true {f : FanOut Socket Message} {sent : Bool} {key : Channel}
    {connection : Socket} (h : s.failed key connection = true) :
    s.markFailed f sent key connection = true := by
  simp [Server.markFailed, h]

/-- The answer leaves the fan-out with nobody to drop whose send has not failed. -/
theorem FanOut.Ok.next {f : FanOut Socket Message} (h : f.Ok s) (sent : Bool) :
    ∀ connection ∈ (f.next sent).dead, s.markFailed f sent f.key connection = true := by
  intro connection hDead
  cases sent with
  | true => exact markFailed_true (h.failed connection hDead)
  | false =>
      simp only [FanOut.next, Bool.false_eq_true, if_false, List.mem_append,
        Option.mem_toList] at hDead
      rcases hDead with hOld | hHead
      · exact markFailed_true (h.failed connection hOld)
      · simp [Server.markFailed, Option.mem_def.mp hHead]

/-- A new socket keeps the invariant. -/
theorem Inv.connect (h : Inv s) (websocket : Socket) (key : Channel) :
    Inv { s with
      manager := s.manager.append websocket key
      connected := record s.connected key websocket true } where
  sound := h.sound.append websocket key
  registered key' websocket' hLive := by
    rw [h.sound.bucket_append]
    by_cases hNew : key' = key ∧ websocket' = websocket
    · obtain ⟨rfl, rfl⟩ := hNew
      simp
    · have hOld : websocket' ∈ s.manager.bucket key' := by
        apply h.registered
        simpa [Server.live, record, hNew] using hLive
      split_ifs with hSame
      · exact List.mem_append_left _ (hSame ▸ hOld)
      · exact hOld
  fanOuts call f hCall := by
    have hSerial : s.manager.lists.serial ≤ (s.manager.append websocket key).lists.serial := by
      unfold ConnectionManager.append
      split <;> simp
    refine (h.fanOuts call f hCall).mono hSerial (fun key' list hKey' => ?_)
      fun _ _ hFailed => hFailed
    rcases ConnectionManager.append_connections websocket hKey' with hOld | ⟨_, _, hNew⟩
    · exact .inl hOld
    · exact .inr hNew.ge

/-- A socket that leaves keeps the invariant. -/
theorem Inv.disconnect (h : Inv s) (websocket : Socket) (key : Channel) :
    Inv { s with
      manager := s.manager.remove websocket key
      connected := record s.connected key websocket false } where
  sound := h.sound.remove websocket key
  registered key' websocket' hLive := by
    obtain ⟨hConnected, hNot⟩ := hLive
    have hOther : ¬(key' = key ∧ websocket' = websocket) := by
      intro hSame
      simp [record, hSame] at hConnected
    have hOld : websocket' ∈ s.manager.bucket key' := by
      apply h.registered
      exact ⟨by simpa [record, hOther] using hConnected, hNot⟩
    rw [h.sound.bucket_remove]
    split_ifs with hSame
    · subst hSame
      exact (List.mem_erase_of_ne fun hEq => hOther ⟨rfl, hEq⟩).mpr hOld
    · exact hOld
  fanOuts call f hCall := by
    have hNamed (key' : Channel) (list : Nat)
        (hKey' : (s.manager.remove websocket key).connections key' = some list) :
        s.manager.connections key' = some list ∨ s.manager.lists.serial ≤ list :=
      .inl (h.sound.remove_connections hKey')
    exact (h.fanOuts call f hCall).mono (h.sound.remove_serial websocket key).ge hNamed
      fun _ _ hFailed => hFailed

/-- The end of a fan-out takes only failed sockets out of the bucket, unless it
drops another list. -/
theorem FanOut.Ok.mem_prune {f : FanOut Socket Message} (hOk : f.Ok s)
    (hOwn : s.manager.pruned f = [] → ∀ named, s.manager.connections f.key = some named →
      named = f.list) {key : Channel} {websocket : Socket}
    (hIn : websocket ∈ s.manager.bucket key) (hNot : key = f.key → websocket ∉ f.dead) :
    websocket ∈ (s.manager.prune f).bucket key := by
  rw [ConnectionManager.prune_eq,
    ConnectionManager.bucket_rewrite (ConnectionManager.foldl_erase_nil f.dead) hOk.owner hOwn]
  split_ifs with hNamed
  · exact ConnectionManager.mem_foldl_erase hIn (hNot (hOk.owner key hNamed))
  · exact hIn

/-- Whoever is live after an answer was live before it, and is not one of those
the fan-out is going to drop. -/
theorem FanOut.Ok.live_answer {f : FanOut Socket Message} (hOk : f.Ok s) {sent : Bool}
    {key : Channel} {websocket : Socket} (hConnected : s.connected key websocket = true)
    (hNot : s.markFailed f sent key websocket = false) :
    s.live key websocket ∧ (key = f.key → websocket ∉ (f.next sent).dead) := by
  refine ⟨⟨hConnected, ?_⟩, ?_⟩
  · by_contra hFailed
    rw [markFailed_true (Bool.eq_true_of_not_eq_false hFailed)] at hNot
    cases hNot
  · rintro rfl hDead
    rw [hOk.next sent websocket hDead] at hNot
    cases hNot

/-- An answer keeps the invariant when the list that is dropped is its own. -/
theorem Inv.answer (h : Inv s) {call : Nat} {f : FanOut Socket Message}
    (hCall : s.fanOuts call = some f) {sent : Bool}
    (hOwn : (f.next sent).waiting = [] → s.manager.pruned (f.next sent) = [] →
      ∀ named, s.manager.connections f.key = some named → named = f.list) :
    Inv (s.answer call f sent) := by
  have hOk := h.fanOuts call f hCall
  have hNext : FanOut.Ok { s with failed := s.markFailed f sent } (f.next sent) :=
    ⟨hOk.made, hOk.owner, hOk.next sent⟩
  have hFailed (key : Channel) (connection : Socket) (hOld : s.failed key connection = true) :
      s.markFailed f sent key connection = true := markFailed_true hOld
  simp only [Server.answer, List.isEmpty_iff]
  split_ifs with hLast
  · refine ⟨h.sound.rewrite hNext.owner, fun key websocket hLive => ?_, fun call' g hg => ?_⟩
    · obtain ⟨hOld, hNotDead⟩ := hOk.live_answer hLive.1 hLive.2
      exact hNext.mem_prune (hOwn hLast) (h.registered key websocket hOld) hNotDead
    · have hOther : call' ≠ call := by
        rintro rfl
        simp [Server.leave] at hg
      have hg := h.fanOuts call' g (by simpa [Server.leave, hOther] using hg)
      refine hg.mono (ConnectionManager.rewrite_serial _ _ _).ge (fun key list hKey => ?_) hFailed
      exact .inl (ConnectionManager.rewrite_connections hKey)
  · refine ⟨h.sound, fun key websocket hLive => ?_, fun call' g hg => ?_⟩
    · exact h.registered key websocket (hOk.live_answer hLive.1 hLive.2).1
    · by_cases hSame : call' = call
      · subst hSame
        simp only [Function.update_self, Option.some.injEq] at hg
        subst hg
        exact ⟨hNext.made, hNext.owner, hNext.failed⟩
      · have hg := h.fanOuts call' g (by simpa [hSame] using hg)
        exact hg.mono le_rfl (fun _ _ hKey => .inl hKey) hFailed

/-- Every step that drops its own list keeps the invariant. -/
theorem step_inv (e : Event Socket Message) (h : Inv s) (hStep : step s e = some s')
    (hOwn : DropsOwnList s e) : Inv s' := by
  cases e with
  | connect websocket key =>
      obtain rfl := Option.some.inj hStep
      exact h.connect websocket key
  | disconnect websocket key =>
      obtain rfl := Option.some.inj hStep
      exact h.disconnect websocket key
  | fanOut call key message =>
      simp only [step, Option.ite_none_right_eq_some, Option.some.injEq] at hStep
      obtain ⟨_, rfl⟩ := hStep
      exact h.fanOut call key message
  | answer call sent =>
      obtain ⟨f, hCall, rfl⟩ := Option.map_eq_some_iff.mp hStep
      apply h.answer hCall
      intro hLast hEmpty named hNamed
      simpa [DropsOwnList, dropsAnother, hCall, hLast, hEmpty, hNamed] using hOwn
  | cancel call =>
      obtain rfl := Option.some.inj hStep
      exact h.cancel call

/-- A new socket keeps the lists placed. -/
theorem Placed.connect (h : Placed s) (websocket : Socket) (key : Channel) :
    Placed (s.connect websocket key) := by
  apply h.mono (h.sound.append websocket key)
  · unfold Server.connect ConnectionManager.append
    dsimp only
    split <;> simp
  · intro key' list hKey'
    rcases ConnectionManager.append_connections websocket hKey' with hOld | ⟨_, _, hNew⟩
    · exact .inl hOld
    · exact .inr hNew.ge
  · exact fun call f hCall => ⟨f, hCall, rfl, rfl⟩

/-- A socket that leaves keeps the lists placed. -/
theorem Placed.disconnect (h : Placed s) (websocket : Socket) (key : Channel) :
    Placed (s.disconnect websocket key) := by
  apply h.mono (h.sound.remove websocket key) (h.sound.remove_serial websocket key).ge
  · exact fun key' list hKey' => .inl (h.sound.remove_connections hKey')
  · exact fun call f hCall => ⟨f, hCall, rfl, rfl⟩

/-- The bucket of another key, or fewer sockets, but for the one that connects. -/
theorem Placed.step (h : Placed s) {e : Event Socket Message} (hStep : Realtime.step s e = some s')
    (hOld : ∀ websocket key, e ≠ .connect websocket key) :
    Placed s' ∧ ∀ key, (s'.manager.bucket key).Sublist (s.manager.bucket key) := by
  cases e with
  | connect websocket key => exact absurd rfl (hOld websocket key)
  | disconnect websocket key =>
      obtain rfl := Option.some.inj hStep
      refine ⟨h.disconnect websocket key, fun key' => ?_⟩
      show ((s.manager.remove websocket key).bucket key').Sublist _
      rw [h.sound.bucket_remove]
      split_ifs with hSame
      · rw [hSame]
        exact List.erase_sublist
      · exact List.Sublist.refl _
  | fanOut call key message =>
      simp only [Realtime.step, Option.ite_none_right_eq_some, Option.some.injEq] at hStep
      obtain ⟨_, rfl⟩ := hStep
      have hNew {f : FanOut Socket Message} (hf : s.manager.fanOut key message = some f) :
          s.manager.connections key = some f.list ∧ f.key = key := by
        simp only [ConnectionManager.fanOut] at hf
        split at hf
        next => cases hf
        next list hKey =>
          split_ifs at hf
          obtain rfl := Option.some.inj hf
          exact ⟨hKey, rfl⟩
      refine ⟨⟨h.sound, fun call' f hCall => ?_, fun call' f hCall key' hKey' => ?_⟩,
        fun _ => List.Sublist.refl _⟩
      · by_cases hSame : call' = call
        · subst hSame
          obtain ⟨hKey, _⟩ := hNew (by simpa using hCall)
          obtain ⟨sockets, hList, _⟩ := h.sound.filled key f.list hKey
          exact Table.lt_serial hList
        · exact h.made call' f (by simpa [hSame] using hCall)
      · by_cases hSame : call' = call
        · subst hSame
          obtain ⟨hKey, hIs⟩ := hNew (by simpa using hCall)
          rw [hIs]
          exact h.sound.apart key' key f.list hKey' hKey
        · exact h.owner call' f (by simpa [hSame] using hCall) key' hKey'
  | answer call sent =>
      obtain ⟨f, hCall, rfl⟩ := Option.map_eq_some_iff.mp hStep
      have hCalls {call' : Nat} {g : FanOut Socket Message}
          (hg : Function.update s.fanOuts call (some (f.next sent)) call' = some g) :
          ∃ old, s.fanOuts call' = some old ∧ g.list = old.list ∧ g.key = old.key := by
        by_cases hSame : call' = call
        · subst hSame
          rw [Function.update_self, Option.some.injEq] at hg
          exact ⟨f, hCall, hg ▸ rfl, hg ▸ rfl⟩
        · exact ⟨g, by simpa [hSame] using hg, rfl, rfl⟩
      simp only [Server.answer]
      split_ifs with hLast
      · refine ⟨h.mono (h.sound.rewrite (h.owner call f hCall)) ?_ ?_ ?_, fun key => ?_⟩
        · exact (ConnectionManager.rewrite_serial _ _ _).ge
        · exact fun key list hKey => .inl (ConnectionManager.rewrite_connections hKey)
        · intro call' g hg
          by_cases hSame : call' = call
          · simp [Server.leave, hSame] at hg
          · exact ⟨g, by simpa [Server.leave, hSame] using hg, rfl, rfl⟩
        · exact ConnectionManager.bucket_rewrite_sublist
            (ConnectionManager.foldl_erase_sublist _) key
      · refine ⟨h.mono h.sound le_rfl (fun _ _ hKey => .inl hKey) ?_, fun _ => List.Sublist.refl _⟩
        exact fun call' g hg => hCalls hg
  | cancel call =>
      obtain rfl := Option.some.inj hStep
      refine ⟨h.mono h.sound le_rfl (fun _ _ hKey => .inl hKey) ?_, fun _ => List.Sublist.refl _⟩
      intro call' g hg
      by_cases hSame : call' = call
      · simp [Server.leave, hSame] at hg
      · exact ⟨g, by simpa [Server.leave, hSame] using hg, rfl, rfl⟩

/-- The sockets under other keys and the other fan-outs are as they were. -/
structure Apart (call : Nat) (f : FanOut Socket Message) (s s' : Server Socket Message) : Prop where
  buckets : ∀ key, key ≠ f.key → s'.manager.bucket key = s.manager.bucket key
  fanOuts : ∀ other, other ≠ call → s'.fanOuts other = s.fanOuts other

/-- Whatever becomes of a send, nobody else is affected. -/
theorem Placed.answer_apart (h : Placed s) {call : Nat} {f : FanOut Socket Message} {sent : Bool}
    (hCall : s.fanOuts call = some f) (hStep : Realtime.step s (.answer call sent) = some s') :
    Apart call f s s' := by
  obtain rfl : s.answer call f sent = s' := by simpa [Realtime.step, hCall] using hStep
  simp only [Server.answer]
  split_ifs with hLast
  · refine ⟨fun key hKey => ?_, fun other hOther => Function.update_of_ne hOther _ _⟩
    have hNot : s.manager.connections key ≠ some f.list :=
      fun hNamed => hKey (h.owner call f hCall key hNamed)
    simp only [ConnectionManager.prune, ConnectionManager.popIfEmpty]
    split_ifs
    · exact ConnectionManager.bucket_modify_other hNot _ _ (Function.update_of_ne hKey _ _)
    · exact ConnectionManager.bucket_modify_other hNot _ _ rfl
  · exact ⟨fun _ _ => rfl, fun other hOther => Function.update_of_ne hOther _ _⟩

/-- In every run, since no run breaks what is asked of the calls. -/
theorem placed_of_reaches {ok : Server Socket Message → Event Socket Message → Prop}
    (run : Runs.Reaches Realtime.step ok Server.initial s) : Placed s := by
  apply run.invariant initial_placed
  intro s s' e h hStep _
  cases e with
  | connect websocket key =>
      obtain rfl := Option.some.inj hStep
      exact h.connect websocket key
  | _ => exact (h.step hStep fun _ _ hIs => by cases hIs).1

/-- In every run in which no fan-out drops a list that is not its own, a live
socket stays registered. -/
theorem live_sockets_kept (run : Runs.Reaches step DropsOwnList Server.initial s) :
    LiveSocketsKept s :=
  (run.invariant initial_inv fun e h hStep hOwn => step_inv e h hStep hOwn).liveSocketsKept

/-- Two viewers of a lot: the first leaves during a fan-out to both. -/
theorem live_sockets_kept_viewers : ∃ s : Server Nat Unit,
    s.manager.bucket (.auction 0) = [2] ∧ LiveSocketsKept s := by
  obtain ⟨s, run, hBucket⟩ := Runs.exists_reaches step DropsOwnList Server.initial
    [.connect 1 (.auction 0), .connect 2 (.auction 0), .fanOut 0 (.auction 0) (),
      .disconnect 1 (.auction 0), .answer 0 false, .answer 0 true]
    (fun s : Server Nat Unit => s.manager.bucket (.auction 0) = [2]) (by decide +kernel)
  exact ⟨s, hBucket, live_sockets_kept run⟩

/-- The only viewer leaves during a fan-out and another connects before it ends:
the newcomer's list is dropped. -/
theorem fan_out_drops_newcomer : ∃ s : Server Nat Unit,
    Runs.Reaches step (fun _ _ => True) Server.initial s ∧ ¬LiveSocketsKept s := by
  obtain ⟨s, run, hLive, hBucket⟩ := Runs.exists_reaches step (fun _ _ => True) Server.initial
    [.connect 1 (.auction 0), .fanOut 0 (.auction 0) (), .disconnect 1 (.auction 0),
      .connect 2 (.auction 0), .answer 0 true]
    (fun s : Server Nat Unit => (s.connected (.auction 0) 2 = true ∧
      s.failed (.auction 0) 2 = false) ∧ s.manager.bucket (.auction 0) = []) (by decide +kernel)
  refine ⟨s, run, fun hKept => ?_⟩
  have hIn := hKept.registered (.auction 0) 2 hLive
  rw [hBucket] at hIn
  cases hIn

end OnlineAuction.Realtime
