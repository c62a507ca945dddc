import ModernCppHw.Socks5.Isolation

/-! The two directions bytes are relayed in, and what a reaction of a session
means for either: a direction alternates between a read and the writes that pass
on what was read. -/

set_option autoImplicit false

namespace ModernCppHw.Socks5

inductive Direction where
  | up
  | down
  deriving DecidableEq

namespace Direction

def readType : Direction → EventType
  | .up => .clientRead
  | .down => .destinationRead

def writeType : Direction → EventType
  | .up => .destinationWrite
  | .down => .clientWrite

/-- The requests of the direction. -/
def Includes (direction : Direction) (type : EventType) : Prop :=
  type = direction.readType ∨ type = direction.writeType

instance (direction : Direction) (type : EventType) : Decidable (direction.Includes type) := by
  unfold Includes
  infer_instance

instance (property : Direction → Prop) [DecidablePred property] :
    Decidable (∃ direction, property direction) :=
  decidable_of_iff (property .up ∨ property .down)
    ⟨fun either => either.elim (fun holds => ⟨_, holds⟩) fun holds => ⟨_, holds⟩,
      fun ⟨direction, holds⟩ => by cases direction with
        | up => exact .inl holds
        | down => exact .inr holds⟩

/-- Where the direction's payloads are stored. -/
def half (direction : Direction) (session : Session) : Nat :=
  match direction with
  | .up => session.buffer0.first
  | .down => session.buffer1.first

def writeSize (direction : Direction) (session : Session) : Option Nat :=
  match direction with
  | .up => session.destinationWriteSize
  | .down => session.clientWriteSize

def writeOffset (direction : Direction) (session : Session) : Option Nat :=
  match direction with
  | .up => session.destinationWriteOffset
  | .down => session.clientWriteOffset

theorem readType_ne_writeType (direction : Direction) :
    direction.readType ≠ direction.writeType := by
  cases direction <;> exact nofun

theorem Includes.unique {left right : Direction} {type : EventType} (first : left.Includes type)
    (second : right.Includes type) : left = right := by
  cases left <;> cases right <;> rcases first with rfl | rfl <;> rcases second with same | same <;>
    first | rfl | cases same

end Direction

/-- What a reaction of a session that relays means for one direction. -/
inductive Call.Relays (direction : Direction) (call after : Call) (request : Request) (res : Int) :
    Prop where
  | began :
      call.self.state ≠ .proxyingRequests →
      (∀ new ∈ after.submitted, new.type = direction.writeType →
        new.operation.region.length = 0 ∧ direction.writeSize after.self = some 0 ∧
          direction.writeOffset after.self = some 0) →
      Relays direction call after request res
  | passed :
      call.self.state = .proxyingRequests → after.buffers = call.buffers →
      direction.writeSize after.self = direction.writeSize call.self →
      direction.writeOffset after.self = direction.writeOffset call.self →
      (∀ new ∈ after.submitted, ¬ direction.Includes new.type) →
      (request.type = direction.writeType → res < 0) →
      Relays direction call after request res
  | read {fd : Fd} {length offset : Nat} {bufferIndex : Option Nat} {new : Request} :
      call.self.state = .proxyingRequests → after.buffers = call.buffers →
      request.type = direction.readType → 0 < res →
      request.operation = .read fd ⟨direction.half call.self, length⟩ offset bufferIndex →
      direction.writeSize after.self = some res.toNat →
      direction.writeOffset after.self = some 0 →
      after.submitted = [new] → new.type = direction.writeType →
      new.operation.region = ⟨direction.half call.self, res.toNat⟩ →
      Relays direction call after request res
  | wrote {fd : Fd} {size offset place : Nat} {bufferIndex : Option Nat} {new : Request} :
      call.self.state = .proxyingRequests → call.self.isFailed = false →
      after.buffers = call.buffers → request.type = direction.writeType → 0 ≤ res →
      request.operation =
        .write fd ⟨direction.half call.self, size - offset⟩ place bufferIndex →
      direction.writeSize call.self = some size → direction.writeOffset call.self = some offset →
      after.submitted = [new] →
      (res.toNat + offset = size ∧ new.type = direction.readType) ∨
        (res.toNat + offset < size ∧ new.type = direction.writeType ∧
          new.operation.region = ⟨direction.half call.self, size - (offset + res.toNat)⟩ ∧
          direction.writeSize after.self = some size ∧
          direction.writeOffset after.self = some (offset + res.toNat)) →
      Relays direction call after request res

theorem Handled.notProxying {env : Env} {call after : Call} {decision : Decision}
    (handled : Handled env call decision (.ok after)) :
    after.self.state ≠ .proxyingRequests := by
  generalize ended : Except.ok after = result at handled
  cases handled with
  | wait steady inPhase =>
      cases ended
      exact fun same => (inPhase.state ▸ Phase.state_beforeConnect _).2 same
  | close steady state =>
      obtain ⟨files, -, -, rfl⟩ := Call.failImmediately_ok ended.symm
      exact fun same => absurd (state.symm.trans same) nofun
  | selectMethod steady state | refuseMethods steady state | refuse steady state
  | unresolved steady state | socketException steady state =>
      cases ended
      exact fun same => absurd (state.symm.trans same) nofun
  | otherFamily steady state =>
      cases Call.unreachable_ok ended.symm
      exact fun same => absurd (state.symm.trans same) nofun
  | connect =>
      cases ended
      exact nofun
  | socketError => cases ended

namespace Call

variable {env : Env} {call : Call}

theorem forwardUp_submitted (fresh : call.submitted = []) (socket : Socket) (size offset : Nat) :
    (call.forgetEvent.forwardUp env socket size offset).submitted =
      [call.self.destinationWriteRequest env.isRoot socket (size - offset) offset] := by
  change call.submitted ++ [_] = _
  rw [fresh]
  rfl

theorem forwardDown_submitted (fresh : call.submitted = []) (size offset : Nat) :
    (call.forgetEvent.forwardDown env size offset).submitted =
      [call.self.clientWriteRequest env.isRoot (size - offset) offset] := by
  change call.submitted ++ [_] = _
  rw [fresh]
  rfl

theorem addClientReadRequest_submitted (fresh : call.submitted = []) :
    (call.forgetEvent.addClientReadRequest env).submitted =
      [call.self.clientReadRequest env.isRoot] := by
  change call.submitted ++ [_] = _
  rw [fresh]
  rfl

theorem readDestination_submitted (fresh : call.submitted = []) (socket : Socket) :
    (call.forgetEvent.readDestination env socket).submitted =
      [call.self.destinationReadRequest env.isRoot socket] := by
  change call.submitted ++ [_] = _
  rw [fresh]
  rfl

theorem beginProxying_reads (fresh : call.submitted = []) (none : call.self.readBuffer = [])
    (socket : Socket) (nwrite : Nat) :
    ((call.forgetEvent.sent nwrite).beginProxying env socket).submitted =
      [call.self.destinationReadRequest env.isRoot socket,
        call.self.clientReadRequest env.isRoot] := by
  have submitted : (call.forgetEvent.sent nwrite).submitted = [] := fresh
  have unread : (call.forgetEvent.sent nwrite).self.readBuffer = [] := none
  simp only [beginProxying, readDestination, expectEvent, submit, update, unread, submitted]
  rfl

theorem beginProxying_writes (fresh : call.submitted = []) (early : call.self.readBuffer ≠ [])
    (socket : Socket) (nwrite : Nat) :
    ((call.forgetEvent.sent nwrite).beginProxying env socket).submitted =
      [call.self.destinationReadRequest env.isRoot socket,
        call.self.destinationWriteRequest env.isRoot socket 0 0] := by
  have submitted : (call.forgetEvent.sent nwrite).submitted = [] := fresh
  have held : (call.forgetEvent.sent nwrite).self.readBuffer ≠ [] := early
  simp only [beginProxying, readDestination, expectEvent, submit, update, if_neg held, submitted]
  rfl

theorem beginProxying_state (call : Call) (socket : Socket) :
    (call.beginProxying env socket).self.state = .proxyingRequests ∧
      (call.beginProxying env socket).self.isFailed = call.self.isFailed := by
  simp only [beginProxying]
  split <;> exact ⟨rfl, rfl⟩

private theorem Relays.of_other {direction : Direction} {after : Call} {request only : Request}
    {res : Int} (theirs : Direction) (different : direction ≠ theirs)
    (proxying : call.self.state = .proxyingRequests) (buffers : after.buffers = call.buffers)
    (size : direction.writeSize after.self = direction.writeSize call.self)
    (offset : direction.writeOffset after.self = direction.writeOffset call.self)
    (submitted : after.submitted = [only]) (completed : theirs.Includes request.type)
    (new : theirs.Includes only.type) : call.Relays direction after request res := by
  refine .passed proxying buffers size offset (fun other member ours => ?_) fun writing =>
    absurd (Direction.Includes.unique (.inr writing) completed) different
  rw [submitted] at member
  cases List.mem_singleton.mp member
  exact different (ours.unique new)

end Call

theorem Reacts.relays {env : Env} {call after : Call} {res : Int} {request : Request}
    {rest : List Request} (reacted : Reacts env call res request rest (.ok (after, false)))
    (fresh : call.submitted = []) (state : after.self.state = .proxyingRequests)
    (direction : Direction) : Call.Relays direction call after request res := by
  generalize ended : Except.ok (after, false) = result at reacted
  cases reacted with
  | lost before =>
      obtain ⟨files, -, -, rfl⟩ := Call.failImmediately_ok (kept_ok ended.symm).1
      exact absurd state before.2
  | decoded _ _ _ _ _ handled | methodSent _ _ _ _ _ _ handled =>
      obtain ⟨rfl, -⟩ := kept_ok ended.symm
      exact absurd state handled.notProxying
  | refusalSent before =>
      cases ended
      exact absurd state before.2
  | methodGoesOn early | connected early | grantGoesOn early =>
      cases ended
      exact absurd (early.symm.trans state) nofun
  | deleted => cases ended
  | granted early =>
      cases ended
      refine .began (by simp [early]) fun new member writing => ?_
      by_cases held : call.self.readBuffer = []
      · rw [Call.beginProxying_reads fresh held] at member
        rcases List.mem_pair.mp member with rfl | rfl <;> cases direction <;> cases writing
      · rw [Call.beginProxying_writes fresh held] at member
        have begun : ∀ socket, (call.forgetEvent.sent res.toNat).beginProxying env socket = _ :=
          fun socket => if_neg held
        rw [begun]
        rcases List.mem_pair.mp member with rfl | rfl <;> cases direction <;> cases writing
        exact ⟨rfl, rfl, rfl⟩
  | hungUp proxying _ _ _ _ ending =>
      obtain ⟨files, -, -, rfl⟩ := Call.failImmediately_ok (kept_ok ended.symm).1
      have silent : ∀ new ∈ call.forgetEvent.submitted, ¬ direction.Includes new.type :=
        fun new member => absurd member (not_submitted fresh rfl)
      have failing : request.type = direction.writeType → res < 0 := by
        intro writing
        rcases ending with failing | ⟨-, reading | reading⟩
        · exact failing
        · cases direction <;> exact nomatch reading.symm.trans writing
        · cases direction <;> exact nomatch reading.symm.trans writing
      cases direction <;> exact .passed proxying rfl rfl rfl silent failing
  | upRead proxying _ _ _ _ positive =>
      cases ended
      cases direction with
      | up =>
          exact .read proxying rfl rfl positive rfl rfl rfl
            (Call.forwardUp_submitted fresh _ _ _) rfl rfl
      | down =>
          exact .of_other .up nofun proxying rfl rfl rfl
            (Call.forwardUp_submitted fresh _ _ _) (.inl rfl) (.inr rfl)
  | upWritten proxying healthy _ _ _ sized placed succeeded whole =>
      cases ended
      cases direction with
      | up =>
          exact .wrote proxying healthy rfl rfl succeeded rfl sized placed
            (Call.addClientReadRequest_submitted fresh) (.inl ⟨whole, rfl⟩)
      | down =>
          exact .of_other .up nofun proxying rfl rfl rfl
            (Call.addClientReadRequest_submitted fresh) (.inr rfl) (.inl rfl)
  | upGoesOn proxying healthy _ _ _ sized placed succeeded part =>
      cases ended
      cases direction with
      | up =>
          exact .wrote proxying healthy rfl rfl succeeded rfl sized placed
            (Call.forwardUp_submitted fresh _ _ _) (.inr ⟨part, rfl, rfl, rfl, rfl⟩)
      | down =>
          exact .of_other .up nofun proxying rfl rfl rfl
            (Call.forwardUp_submitted fresh _ _ _) (.inr rfl) (.inr rfl)
  | downRead proxying _ _ _ _ positive =>
      cases ended
      cases direction with
      | up =>
          exact .of_other .down nofun proxying rfl rfl rfl
            (Call.forwardDown_submitted fresh _ _) (.inl rfl) (.inr rfl)
      | down =>
          exact .read proxying rfl rfl positive rfl rfl rfl
            (Call.forwardDown_submitted fresh _ _) rfl rfl
  | downWritten proxying healthy _ _ _ sized placed succeeded whole =>
      cases ended
      cases direction with
      | up =>
          exact .of_other .down nofun proxying rfl rfl rfl
            (Call.readDestination_submitted fresh _) (.inr rfl) (.inl rfl)
      | down =>
          exact .wrote proxying healthy rfl rfl succeeded rfl sized placed
            (Call.readDestination_submitted fresh _) (.inl ⟨whole, rfl⟩)
  | downGoesOn proxying healthy _ _ _ sized placed succeeded part =>
      cases ended
      cases direction with
      | up =>
          exact .of_other .down nofun proxying rfl rfl rfl
            (Call.forwardDown_submitted fresh _ _) (.inr rfl) (.inr rfl)
      | down =>
          exact .wrote proxying healthy rfl rfl succeeded rfl sized placed
            (Call.forwardDown_submitted fresh _ _) (.inr ⟨part, rfl, rfl, rfl, rfl⟩)

/-- A session that relays goes on to, failed or not, until it is deleted. -/
theorem Reacts.proxying {env : Env} {call after : Call} {res : Int} {request : Request}
    {rest : List Request} (reacted : Reacts env call res request rest (.ok (after, false)))
    (proxying : call.self.state = .proxyingRequests) :
    after.self.state = .proxyingRequests := by
  generalize ended : Except.ok (after, false) = result at reacted
  cases reacted with
  | lost before => exact absurd proxying before.2
  | refusalSent before => exact absurd proxying before.2
  | decoded inPhase => exact absurd proxying (inPhase.state ▸ Phase.state_beforeConnect _).2
  | methodGoesOn early | methodSent early | connected early | grantGoesOn early | granted early =>
      exact absurd (early.symm.trans proxying) nofun
  | deleted => cases ended
  | hungUp =>
      obtain ⟨files, -, -, rfl⟩ := Call.failImmediately_ok (kept_ok ended.symm).1
      exact proxying
  | upRead | upWritten | upGoesOn | downRead | downWritten | downGoesOn =>
      cases ended
      exact proxying

namespace Session

variable {isRoot : Bool} {session : Session} {socket : Socket} {request : Request}
  {requests rest : List Request}

theorem UpRequest.included (up : session.UpRequest isRoot socket request) :
    Direction.up.Includes request.type := by
  cases up with
  | read => exact .inl rfl
  | write => exact .inr rfl

theorem DownRequest.included (down : session.DownRequest isRoot socket request) :
    Direction.down.Includes request.type := by
  cases down with
  | read => exact .inl rfl
  | write => exact .inr rfl

/-- A session has at most one request of each direction in flight. -/
theorem Consistent.countP_le_one (consistent : session.Consistent isRoot requests)
    (direction : Direction) :
    requests.countP (fun request => direction.Includes request.type) ≤ 1 := by
  cases consistent with
  | proxying state up down both =>
      have upward := up.included
      have downward := down.included
      rw [both.countP_eq]
      cases direction with
      | up =>
          have other : ¬ Direction.up.Includes _ := fun ours => nomatch ours.unique downward
          simp [upward, other]
      | down =>
          have other : ¬ Direction.down.Includes _ := fun ours => nomatch ours.unique upward
          simp [downward, other]
  | _ => exact List.countP_le_length.trans (by simp)

theorem Consistent.alone (consistent : session.Consistent isRoot requests)
    (split : requests.Perm (request :: rest)) {direction : Direction}
    (included : direction.Includes request.type) :
    ∀ other ∈ rest, ¬ direction.Includes other.type := by
  have few := consistent.countP_le_one direction
  rw [split.countP_eq, List.countP_cons_of_pos (by simpa using included)] at few
  have none : rest.countP (fun request => direction.Includes request.type) = 0 := by omega
  simpa using List.countP_eq_zero.mp none

end Session

end ModernCppHw.Socks5
