import ModernCppHw.Socks5.Halves
import ModernCppHw.Socks5.Plain

/-! Where the directions of a session leave each other's payloads alone: always in root
mode, and without registered buffers as long as no read stores more than half a block. -/

set_option autoImplicit false

namespace ModernCppHw.Socks5

/-- Another length may be asked for, but from the same address. -/
theorem Operation.plain_address (operation : Operation) :
    operation.plain.region.address = operation.region.address := by
  cases operation with
  | accept | connect | write => rfl
  | read fd buffer offset bufferIndex =>
      cases bufferIndex with
      | none => rfl
      | some index =>
          simp only [Operation.plain, Operation.region]
          split <;> rfl

theorem Request.plain_region_of_write {request : Request} {region : Region}
    (confined : request.Confined region) (writing : request.type.isWrite = true) :
    request.plain.operation.region = request.operation.region := by
  obtain ⟨type, operation⟩ := request
  cases operation with
  | accept | connect | write => rfl
  | read fd buffer offset bufferIndex => exact absurd rfl (confined.reads writing _ _ _ _)

/-- A connection of a ring without registered buffers. -/
def Connection.plain (connection : Connection) : Connection :=
  { connection with requests := connection.requests.map Request.plain }

theorem Direction.Preserved.plain {direction : Direction} {connection : Connection}
    {region : Region} (preserved : direction.Preserved connection)
    (confined : ∀ request ∈ connection.requests, request.Confined region) :
    direction.Preserved connection.plain := by
  refine ⟨fun state request member included => ?_, fun state request member writing => ?_⟩
  · obtain ⟨own, listed, rfl⟩ := List.mem_map.mp member
    have finds := preserved.finds state own listed included
    simp only [Connection.Finds, Request.Finds] at finds ⊢
    rw [show own.plain.operation.region.address = own.operation.region.address from
      Operation.plain_address own.operation]
    exact finds
  · obtain ⟨own, listed, rfl⟩ := List.mem_map.mp member
    have written : own.type.isWrite = true := by
      rw [show own.type = direction.writeType from writing]
      cases direction <;> rfl
    rw [Connection.content, Request.plain_region_of_write (confined own listed) written]
    exact preserved.writes state own listed writing

namespace Server

theorem plain_requestOf (server : Server) (client : SessionId) (sqe : Sqe) :
    server.plain.requestOf client sqe.plain = (server.requestOf client sqe).map Request.plain := by
  have owner : server.plain.owner sqe.plain = server.owner sqe := rfl
  simp only [requestOf, owner]
  cases server.owner sqe with
  | none => rfl
  | some event =>
      simp only [apply_ite (Option.map Request.plain)]
      rfl

theorem plain_requestsOf (server : Server) (client : SessionId) :
    server.plain.requestsOf client = (server.requestsOf client).map Request.plain := by
  have ring : server.plain.ring = server.ring.map Sqe.plain := rfl
  rw [requestsOf, ring, List.filterMap_map, requestsOf, List.map_filterMap]
  exact List.filterMap_congr fun sqe _ => plain_requestOf server client sqe

theorem plain_connection (server : Server) (client : SessionId) (session : Session) :
    server.plain.connection client session = (server.connection client session).plain := by
  simp only [connection, plain_requestsOf]
  rfl

/-- In root mode, any step; without registered buffers, one that stores no more than half
a block for a read. -/
def KeepsApart (server : Server) (label : Label) : Prop :=
  server.config.isRoot = true ∨ server.Narrow label

instance (operation : Operation) (condition : Prop) [Decidable condition] :
    Decidable (∀ fd buffer offset bufferIndex,
      operation = .read fd buffer offset bufferIndex → condition) :=
  match operation with
  | .read _ _ _ _ => decidable_of_iff condition
      ⟨fun holds _ _ _ _ _ => holds, fun holds => holds _ _ _ _ rfl⟩
  | .accept _ | .connect _ _ | .write _ _ _ _ => isTrue nofun

instance (server : Server) : (label : Label) → Decidable (server.Narrow label)
  | .complete _ _ _ _ | .carry _ _ => by
      unfold Narrow
      infer_instance

instance (server : Server) (label : Label) : Decidable (server.KeepsApart label) := by
  unfold KeepsApart
  infer_instance

end Server

open Transition

theorem reachable_preserved_root {config : Config} {server : Server}
    (root : config.isRoot = true) (reached : (eventLoop config).Reachable server) :
    ∀ client session, server.sessions.get? client = some session → ∀ direction : Direction,
      direction.Preserved (server.connection client session) := by
  intro client session live direction
  have halves : (eventLoop config).ReachableWhen Server.KeepsHalves server :=
    reached.refine fun state label next earlier _ _ =>
      .inl ((congrArg Config.isRoot (reachable_config earlier)).trans root)
  exact reachable_preserved (reachable_intact direction halves) client session live

/-- Without registered buffers the payloads are those of the run in root mode. -/
theorem reachable_preserved_narrow {config : Config} {image : Server}
    (root : config.isRoot = true)
    (reached : (eventLoop config.plain).ReachableWhen Server.Narrow image) :
    ∀ client session, image.sessions.get? client = some session → ∀ direction : Direction,
      direction.Preserved (image.connection client session) := by
  intro client session live direction
  obtain ⟨server, rooted, rfl⟩ := (plain_simulates root).reachable reached
  rw [Server.plain_connection]
  have consistent := (reachable_wellFormed rooted).consistent client session live
  exact (reachable_preserved_root root rooted client session live direction).plain
    fun request member => consistent.confined member

/-- As long as the reads keep to their halves, what is written is what was read. -/
theorem reachable_preserved_apart {config : Config} {server : Server}
    (reached : (eventLoop config).ReachableWhen Server.KeepsApart server) :
    ∀ client session, server.sessions.get? client = some session → ∀ direction : Direction,
      direction.Preserved (server.connection client session) := by
  by_cases root : config.isRoot = true
  · exact reachable_preserved_root root reached.reachable
  · have unrooted : config.isRoot = false := Bool.eq_false_iff.mpr root
    have same : config = ({ config with isRoot := true } : Config).plain := by
      rw [Config.plain, ← unrooted]
    have narrow : (eventLoop config).ReachableWhen Server.Narrow server :=
      reached.refine fun state label next earlier apart _ =>
        apart.resolve_left ((congrArg Config.isRoot (reachable_config earlier)).symm ▸ root)
    rw [same] at narrow
    exact reachable_preserved_narrow rfl narrow

end ModernCppHw.Socks5
