import Mathlib.Algebra.BigOperators.Group.Finset.Piecewise
import Mathlib.Algebra.BigOperators.Ring.Finset
import Mathlib.Algebra.Group.Action.Defs
import Mathlib.Algebra.Order.BigOperators.Group.Finset
import Mathlib.Algebra.Order.Ring.Int
import Mathlib.Data.Fintype.BigOperators
import Mathlib.Order.Bounds.Basic
import Mathlib.Order.Interval.Set.Infinite
import ModernCppHw.Socks5.Admission

/-! The process that `main` starts: each of its threads runs the loop of a ring of
its own, and they share one table of descriptors, whose limit `main` sets. The
system here gives out descriptors without a limit, so that what the pools admit
can be compared with it. -/

set_option autoImplicit false

namespace ModernCppHw.Socks5

/-- How many threads there are: each has room for a connection. -/
structure Threads where
  count : Nat
  positive : 0 < count
  bounded : count ≤ maxConnections

/-- `file_limit.rlim_cur`. -/
def fileLimit : Nat := maxConnections * 2

namespace Threads

variable (threads : Threads) (isRoot ndebug : Bool)

/-- The standard streams, the listening socket, and a ring for each thread. -/
def files : List Fd := (List.range (3 + 1 + threads.count)).map Int.ofNat

/-- What each thread constructs its ring with. -/
def config : Config where
  nconnections := oneThreadConnections threads.count
  isRoot := isRoot
  ndebug := ndebug
  listenFd := 3
  files := threads.files
  positive := Nat.div_pos threads.bounded threads.positive
  inRange := oneThreadConnections_inRange threads.count
  distinct := List.nodup_range.map fun _ _ same => Int.ofNat.inj same
  numbered := by
    intro fd member
    obtain ⟨number, -, rfl⟩ := List.mem_map.mp member
    exact Int.natCast_nonneg number

end Threads

/-- The servers the threads run, and for each thread the descriptor of a
connection that has been accepted and that its loop has not dealt with yet. -/
structure Process (threads : Threads) where
  rings : Fin threads.count → Server
  accepted : Fin threads.count → Option Fd

namespace Process

variable {threads : Threads}

/-- The descriptors in use. -/
def files (process : Process threads) : List Fd :=
  (List.finRange threads.count).flatMap fun thread =>
    (process.rings thread).files ++ (process.accepted thread).toList

/-- How many descriptors the process holds. -/
def held (process : Process threads) : Nat :=
  3 + 1 + threads.count +
    ∑ thread, ((process.rings thread).sessions.values.flatMap Session.descriptors).length +
    ∑ thread, (process.accepted thread).toList.length

/-- One thread's part is replaced. -/
def set (process : Process threads) (thread : Fin threads.count) (server : Server)
    (accepted : Option Fd) : Process threads where
  rings := Function.update process.rings thread server
  accepted := Function.update process.accepted thread accepted

/-- A socket a loop opens has a number no thread uses, and an accept request
completes in a loop only with an error, unless a connection has arrived. -/
def Permits (process : Process threads) (thread : Fin threads.count) : Label → Prop
  | .complete index res _ answers => answers.socket.Fresh process.files ∧
      ∀ sqe ∈ (process.rings thread).ring[index]?, sqe.userData = none →
        res < 0 ∧ process.accepted thread = none
  | .carry _ _ => True

/-- One thread moves: a connection arrives for it, or its loop deals with one that
has, or its loop does anything else. -/
inductive Step : Process threads → Fin threads.count → Process threads → Prop where
  | arrive {process : Process threads} {thread : Fin threads.count} {sqe : Sqe} {fd : Fd} :
      process.accepted thread = none → sqe ∈ (process.rings thread).ring → sqe.userData = none →
      0 ≤ fd → fd ∉ process.files →
      Step process thread (process.set thread (process.rings thread) (some fd))
  | examine {process : Process threads} {thread : Fin threads.count} {index : Nat} {sqe : Sqe}
      {fd : Fd} {next : Server} :
      process.accepted thread = some fd → (process.rings thread).ring[index]? = some sqe →
      sqe.userData = none →
      Server.Step (process.rings thread) (.complete index fd [] .none) next →
      Step process thread (process.set thread next none)
  | loop {process : Process threads} {thread : Fin threads.count} {label : Label}
      {next : Server} :
      process.Permits thread label → Server.Step (process.rings thread) label next →
      Step process thread (process.set thread next (process.accepted thread))

/-- Every thread has constructed its ring and waits. -/
def start (threads : Threads) (isRoot ndebug : Bool) : Process threads where
  rings := fun _ => Server.start (threads.config isRoot ndebug)
  accepted := fun _ => none

end Process

def Threads.run (threads : Threads) (isRoot ndebug : Bool) :
    Transition.System (Process threads) (Fin threads.count) where
  start := fun process => process = Process.start threads isRoot ndebug
  step := Process.Step

namespace Process

variable {threads : Threads} {process next : Process threads} {thread other : Fin threads.count}
  {server : Server} {accepted : Option Fd} {isRoot ndebug : Bool} {fd : Fd}

@[simp] theorem set_rings_self : (process.set thread server accepted).rings thread = server :=
  Function.update_self ..

@[simp] theorem set_accepted_self :
    (process.set thread server accepted).accepted thread = accepted :=
  Function.update_self ..

theorem set_rings_of_ne (different : other ≠ thread) :
    (process.set thread server accepted).rings other = process.rings other :=
  Function.update_of_ne different ..

theorem set_accepted_of_ne (different : other ≠ thread) :
    (process.set thread server accepted).accepted other = process.accepted other :=
  Function.update_of_ne different ..

theorem not_mem_ring_files (fresh : fd ∉ process.files) (thread : Fin threads.count) :
    fd ∉ (process.rings thread).files :=
  fun member => fresh (List.mem_flatMap.mpr
    ⟨thread, List.mem_finRange thread, List.mem_append_left _ member⟩)

theorem exists_fresh (files : List Fd) : ∃ fd : Fd, 0 ≤ fd ∧ fd ∉ files := by
  obtain ⟨fd, named, fresh⟩ := (Set.Ici_infinite (0 : Fd)).exists_notMem_finset files.toFinset
  exact ⟨fd, named, fun member => fresh (List.mem_toFinset.mpr member)⟩

open Transition

theorem reachable_rings (reached : (threads.run isRoot ndebug).Reachable process)
    (thread : Fin threads.count) :
    (eventLoop (threads.config isRoot ndebug)).Reachable (process.rings thread) := by
  refine reached.invariant (fun state => ∀ thread,
    (eventLoop (threads.config isRoot ndebug)).Reachable (state.rings thread))
    (fun state started thread => ?_) (fun state moved next _ rings _ stepped => ?_) thread
  · rw [started]
    exact .start rfl
  · have replaced : ∀ {server : Server} {accepted : Option Fd},
        (eventLoop (threads.config isRoot ndebug)).Reachable server → ∀ thread,
        (eventLoop (threads.config isRoot ndebug)).Reachable
          ((state.set moved server accepted).rings thread) := by
      intro server accepted reached thread
      by_cases same : thread = moved
      · subst same
        rw [set_rings_self]
        exact reached
      · rw [set_rings_of_ne same]
        exact rings thread
    cases stepped with
    | arrive => exact replaced (rings moved)
    | examine _ _ _ stepped | loop _ stepped => exact replaced (.step (rings moved) trivial stepped)

theorem set_set {first second : Server} {early late : Option Fd} :
    (process.set thread first early).set thread second late = process.set thread second late := by
  simp [set]

theorem reachable_accept {index : Nat} {sqe : Sqe} {server : Server}
    (reached : (threads.run isRoot ndebug).Reachable process)
    (waits : process.accepted thread = none) (named : 0 ≤ fd) (fresh : fd ∉ process.files)
    (inFlight : (process.rings thread).ring[index]? = some sqe) (unowned : sqe.userData = none)
    (stepped : Server.Step (process.rings thread) (.complete index fd [] .none) server) :
    (threads.run isRoot ndebug).Reachable (process.set thread server none) := by
  have arrived : (threads.run isRoot ndebug).Reachable
      (process.set thread (process.rings thread) (some fd)) :=
    .step reached trivial (.arrive waits (List.mem_of_getElem? inFlight) unowned named fresh)
  have there : (process.set thread (process.rings thread) (some fd)).rings thread =
      process.rings thread := set_rings_self
  have holds : (process.set thread (process.rings thread) (some fd)).accepted thread = some fd :=
    set_accepted_self
  have dealt := Step.examine holds (there ▸ inFlight) unowned (there ▸ stepped)
  rw [set_set] at dealt
  exact .step arrived trivial dealt

theorem reachable_loop {index : Nat} {res : Int} {data : List Byte} {answers : Answers}
    {before server : Server}
    (reached : (threads.run isRoot ndebug).Reachable (process.set thread before none))
    (passes : before.PassesAccept (.complete index res data answers))
    (fresh : answers.socket.Fresh (process.set thread before none).files)
    (stepped : Server.Step before (.complete index res data answers) server) :
    (threads.run isRoot ndebug).Reachable (process.set thread server none) := by
  have there : (process.set thread before none).rings thread = before := set_rings_self
  have permitted : (process.set thread before none).Permits thread
      (.complete index res data answers) := by
    refine ⟨fresh, fun sqe inFlight unowned => ?_⟩
    have carries := passes sqe (there ▸ inFlight)
    rw [unowned] at carries
    cases carries
  have moved := Step.loop permitted (there.symm ▸ stepped)
  rw [set_accepted_self, set_set] at moved
  exact .step reached trivial moved

/-- No accepted connection waits, and each thread serves its number of sessions,
all of them connected. -/
structure Loaded (process : Process threads) (counts : Fin threads.count → Nat) : Prop where
  rings : ∀ thread, (process.rings thread).Loaded (counts thread)
  waits : ∀ thread, process.accepted thread = none

theorem Loaded.extend {counts : Fin threads.count → Nat} (loaded : process.Loaded counts)
    (reached : (threads.run isRoot ndebug).Reachable process)
    (room : counts thread < oneThreadConnections threads.count) :
    ∃ next : Process threads, (threads.run isRoot ndebug).Reachable next ∧
      next.Loaded (Function.update counts thread (counts thread + 1)) := by
  have lawful : ∀ {server : Server},
      (threads.run isRoot ndebug).Reachable (process.set thread server none) →
        server.WellFormed := by
    intro server reached
    have ring := reachable_rings reached thread
    rw [set_rings_self] at ring
    exact reachable_wellFormed ring
  have ring := reachable_rings reached thread
  have capacity : counts thread < (process.rings thread).config.nconnections :=
    (reachable_config ring).symm ▸ room
  obtain ⟨fd, named, fresh⟩ := exists_fresh process.files
  obtain ⟨index, opened, session, stepped, ⟨sqe, inFlight, unowned⟩, admitting, asked, decided⟩ :=
    (loaded.rings thread).accepts_another (reachable_wellFormed ring) capacity named
      (not_mem_ring_files fresh thread)
  have first := reachable_accept reached (loaded.waits thread) named fresh inFlight unowned stepped
  obtain ⟨_, greeting, later, stepped, passes, admitting, asked, message, decided⟩ :=
    admitting.greeted (lawful first) asked decided
  have second := reachable_loop first passes trivial stepped
  obtain ⟨destination, named, fresh⟩ := exists_fresh (process.set thread greeting none).files
  have unused := not_mem_ring_files fresh thread
  rw [set_rings_self] at unused
  obtain ⟨_, connected, stepped, passes, full⟩ :=
    admitting.answered (lawful second) asked message decided named unused
  refine ⟨_, reachable_loop second passes ⟨named, fresh⟩ stepped, fun other => ?_, fun other => ?_⟩
  · by_cases same : other = thread
    · subst same
      rw [set_rings_self, Function.update_self]
      exact full
    · rw [set_rings_of_ne same, Function.update_of_ne same]
      exact loaded.rings other
  · by_cases same : other = thread
    · subst same
      exact set_accepted_self
    · rw [set_accepted_of_ne same]
      exact loaded.waits other

theorem start_loaded : (start threads isRoot ndebug).Loaded fun _ => 0 where
  rings := fun _ =>
    { accepts := rfl
      counted := rfl
      connected := by
        intro client session live
        have absent : (Server.start (threads.config isRoot ndebug)).sessions.get? client = none :=
          Heap.get?_empty
        exact absurd (absent.symm.trans live) nofun }
  waits := fun _ => rfl

/-- The threads together come to serve as many sessions as they have room for. -/
theorem exists_loaded (isRoot ndebug : Bool) {total : Nat}
    (bounded : total ≤ threads.count * oneThreadConnections threads.count) :
    ∃ (process : Process threads) (counts : Fin threads.count → Nat),
      (threads.run isRoot ndebug).Reachable process ∧ process.Loaded counts ∧
        ∑ thread, counts thread = total := by
  induction total with
  | zero => exact ⟨_, _, .start rfl, start_loaded, by simp⟩
  | succ total ih =>
      obtain ⟨process, counts, reached, loaded, summed⟩ := ih (Nat.le_of_succ_le bounded)
      have room : ∃ thread, counts thread < oneThreadConnections threads.count := by
        by_contra full
        simp only [not_exists, Nat.not_lt] at full
        have enough := Finset.card_nsmul_le_sum Finset.univ counts
          (oneThreadConnections threads.count) fun thread _ => full thread
        rw [Finset.card_univ, Fintype.card_fin, smul_eq_mul] at enough
        exact absurd (bounded.trans (enough.trans (Nat.le_of_eq summed))) (Nat.not_succ_le_self _)
      obtain ⟨thread, room⟩ := room
      obtain ⟨next, later, extended⟩ := loaded.extend reached room
      refine ⟨next, _, later, extended, ?_⟩
      have others := Finset.add_sum_erase Finset.univ counts (Finset.mem_univ thread)
      rw [← Finset.add_sum_erase _ _ (Finset.mem_univ thread), Function.update_self]
      have same : ∑ other ∈ Finset.univ.erase thread,
          Function.update counts thread (counts thread + 1) other =
            ∑ other ∈ Finset.univ.erase thread, counts other :=
        Finset.sum_congr rfl fun other member =>
          Function.update_of_ne (Finset.ne_of_mem_erase member) ..
      omega

theorem Loaded.exists_arrived {counts : Fin threads.count → Nat} (loaded : process.Loaded counts)
    (reached : (threads.run isRoot ndebug).Reachable process)
    (examined : Finset (Fin threads.count)) :
    ∃ next : Process threads, (threads.run isRoot ndebug).Reachable next ∧
      next.rings = process.rings ∧
      ∀ thread, (next.accepted thread).isSome = true ↔ thread ∈ examined := by
  induction examined using Finset.induction_on with
  | empty => exact ⟨process, reached, rfl, fun thread => by simp [loaded.waits thread]⟩
  | insert thread examined absent ih =>
      obtain ⟨next, later, rings, accepted⟩ := ih
      obtain ⟨fd, named, fresh⟩ := exists_fresh next.files
      have waits : next.accepted thread = none := by
        rw [← Option.not_isSome_iff_eq_none, accepted]
        exact absent
      have armed : 0 < (next.rings thread).ring.countP fun entry => entry.userData.isNone := by
        have one := (loaded.rings thread).accepts
        rw [rings]
        rw [Server.acceptsInFlight] at one
        omega
      obtain ⟨sqe, inRing, unowned⟩ := List.countP_pos_iff.mp armed
      have carries : sqe.userData = none := Option.isNone_iff_eq_none.mp unowned
      refine ⟨_, .step later trivial (.arrive waits inRing carries named fresh), ?_,
        fun other => ?_⟩
      · simp [set, rings]
      · by_cases same : other = thread
        · subst same
          simp
        · rw [set_accepted_of_ne same, accepted]
          simp [same]

/-- With every thread full, and a connection accepted for each, each session holds
two descriptors. -/
theorem exists_full (threads : Threads) (isRoot ndebug : Bool) :
    ∃ process : Process threads, (threads.run isRoot ndebug).Reachable process ∧
      process.held = 3 + 1 + threads.count +
        2 * (threads.count * oneThreadConnections threads.count) + threads.count := by
  obtain ⟨process, counts, reached, loaded, summed⟩ : ∃ (process : Process threads) (counts : _),
      (threads.run isRoot ndebug).Reachable process ∧ process.Loaded counts ∧
        ∑ thread, counts thread = threads.count * oneThreadConnections threads.count :=
    exists_loaded isRoot ndebug (Nat.le_refl _)
  obtain ⟨next, later, rings, accepted⟩ := loaded.exists_arrived reached Finset.univ
  refine ⟨next, later, ?_⟩
  have sessions : ∀ thread, ((next.rings thread).sessions.values.flatMap
      Session.descriptors).length = 2 * counts thread := by
    intro thread
    have owns := reachable_owns (reachable_rings later thread)
    have full := loaded.rings thread
    rw [← rings] at full
    have two : ∀ session ∈ (next.rings thread).sessions.values,
        session.descriptors.length = 2 := by
      intro session member
      obtain ⟨client, live⟩ := Heap.mem_values.mp member
      exact owns.descriptors_of_connected live (full.connected client session live)
    rw [List.length_flatMap, List.map_congr_left two, List.map_const', List.sum_replicate,
      full.counted, smul_eq_mul, Nat.mul_comm]
  have examined : ∀ thread, (next.accepted thread).toList.length = 1 := by
    intro thread
    obtain ⟨fd, same⟩ := Option.isSome_iff_exists.mp ((accepted thread).mpr (Finset.mem_univ _))
    rw [same]
    rfl
  simp only [held, sessions, examined, ← Finset.mul_sum, summed, Finset.sum_const,
    Finset.card_univ, Fintype.card_fin, smul_eq_mul, Nat.mul_one]

/-- No more is ever held. -/
theorem held_le (reached : (threads.run isRoot ndebug).Reachable process) :
    process.held ≤ 3 + 1 + threads.count +
      2 * (threads.count * oneThreadConnections threads.count) + threads.count := by
  have sessions : ∀ thread ∈ Finset.univ, ((process.rings thread).sessions.values.flatMap
      Session.descriptors).length ≤ 2 * oneThreadConnections threads.count := by
    intro thread _
    have ring := reachable_rings reached thread
    have accounted := (reachable_wellFormed ring).buffers.length
    rw [reachable_config ring, List.length_map] at accounted
    have few : (process.rings thread).sessions.values.length ≤
        oneThreadConnections threads.count := Nat.le.intro ((Nat.add_comm _ _).trans accounted)
    have summed := List.sum_le_card_nsmul
      ((process.rings thread).sessions.values.map fun session => session.descriptors.length) 2 (by
        intro length member
        obtain ⟨session, -, rfl⟩ := List.mem_map.mp member
        exact session.length_descriptors_le)
    rw [List.length_map, smul_eq_mul] at summed
    rw [List.length_flatMap]
    omega
  have examined : ∀ thread ∈ Finset.univ, (process.accepted thread).toList.length ≤ 1 := by
    intro thread _
    cases process.accepted thread <;> simp
  have owned := Finset.sum_le_card_nsmul _ _ _ sessions
  have arrived := Finset.sum_le_card_nsmul _ _ _ examined
  rw [Finset.card_univ, Fintype.card_fin, smul_eq_mul] at owned arrived
  have regrouped : threads.count * (2 * oneThreadConnections threads.count) =
      2 * (threads.count * oneThreadConnections threads.count) := Nat.mul_left_comm ..
  unfold held
  omega

end Process

/-- What the pools of the threads admit in all takes more descriptors than the
limit, however the capacity is divided. -/
theorem Threads.fileLimit_lt (threads : Threads) :
    fileLimit < 3 + 1 + threads.count +
      2 * (threads.count * oneThreadConnections threads.count) + threads.count := by
  have divided := Nat.div_add_mod maxConnections threads.count
  have less := Nat.mod_lt maxConnections threads.positive
  unfold fileLimit oneThreadConnections
  omega

/-- For every number of threads, the most descriptors the process comes to hold
are two for each session the pools admit, besides the fixed ones and one just
accepted for each thread, and that is more than the limit `main` sets. -/
theorem descriptor_limit_exceeded (threads : Threads) (isRoot ndebug : Bool) :
    IsGreatest {count | ∃ process, (threads.run isRoot ndebug).Reachable process ∧
        process.held = count}
      (3 + 1 + threads.count + 2 * (threads.count * oneThreadConnections threads.count) +
        threads.count) ∧
    ∃ process, (threads.run isRoot ndebug).Reachable process ∧ fileLimit < process.held := by
  obtain ⟨process, reached, full⟩ := Process.exists_full threads isRoot ndebug
  refine ⟨⟨⟨process, reached, full⟩, ?_⟩, process, reached, full.symm ▸ threads.fileLimit_lt⟩
  rintro count ⟨other, visited, rfl⟩
  exact Process.held_le visited

/-- One thread with the whole capacity. -/
theorem descriptor_limit_exceeded_single :
    ¬ ∀ (threads : Threads) (isRoot ndebug : Bool) (process : Process threads),
      (threads.run isRoot ndebug).Reachable process → process.held ≤ fileLimit := by
  intro always
  let single : Threads := ⟨1, by decide, by decide⟩
  obtain ⟨process, reached, full⟩ := Process.exists_full single true false
  have within := always single true false process reached
  rw [full] at within
  exact absurd within (Nat.not_le.mpr single.fileLimit_lt)

end ModernCppHw.Socks5
