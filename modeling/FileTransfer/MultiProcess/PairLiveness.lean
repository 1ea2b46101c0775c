import FileTransfer.Lib.Fairness
import FileTransfer.MultiProcess.PairDelivery

/-!
# Every fair copy by two processes ends

Both processes get their turn again and again. Until they have their roles each has so many steps
left; then the rank of the protocol counts, and below it what the two have still to do when they have
returned from their tasks.
-/

namespace FileTransfer.MultiProcessTask

open Posix Fairness
open MultiProcess (Keeping)

/-- What the two processes have still to do until they have their roles. -/
def rolesLeft (m : State) : Nat := leftAt Pc.toRole m 0 + leftAt Pc.toRole m 1

/-- Two processes that have not both got their roles, and the one that is nearer to it with each of
    its steps. -/
inductive Arriving (platform : Platform) (files : FileSystem) (memory : Path)
    (commands : List SCommand) (m : State) : Nat → Prop
  | gathering {i j : Nat} {p q : Process}
      (h : Gathering platform files memory commands m i j p q) :
      Arriving platform files memory commands m i
  | polling {i j : Nat} {p q : Process}
      (h : Polling platform files memory commands m i j p q) :
      Arriving platform files memory commands m j

/-- What counts when both have their roles: the protocol, and then the two ends. -/
def pairRank (p q : Process) (s : MultiProcess.State) : (Nat ×ₗ Nat) ×ₗ Nat :=
  toLex (MultiProcess.rank s, p.pc.toEnd + q.pc.toEnd)

instance (s : MultiProcess.State) : Decidable (MultiProcess.Finished s) :=
  inferInstanceAs (Decidable (_ ∧ _))

/-- The process whose step counts: the one with the party that counts, then the client, then the
    server. -/
def pairTurn (i j : Nat) (p : Process) (s : MultiProcess.State) : Nat :=
  if MultiProcess.Finished s then
    if p.pc.toEnd = 0 then j else i
  else if MultiProcess.helpful s = .sender then j else i

variable {platform : Platform} {files : FileSystem} {memory : Path} {commands : List SCommand}
  {ok : MultiProcess.State → Prop} {m m' : State} {i j k : Nat} {p p' q q' : Process}
  {sys sys' : System} {o : Objects} {s t : MultiProcess.State} {chunks : List (List UInt8)}
  {a b : SCommand}

theorem Two.leftAt_add (h : Two commands m i j p q) (two : commands.length = 2)
    (measure : Pc → Nat) :
    leftAt measure m 0 + leftAt measure m 1 = measure p.pc + measure q.pc := by
  have first : leftAt measure m i = measure p.pc := h.leftAt_first
  have second : leftAt measure m j = measure q.pc := h.symm.leftAt_first
  obtain ⟨inside, -⟩ := List.getElem?_eq_some_iff.mp h.members.1
  obtain ⟨inside', -⟩ := List.getElem?_eq_some_iff.mp h.members.2
  have differ := h.differ
  have which : i = 0 ∧ j = 1 ∨ i = 1 ∧ j = 0 := by omega
  rcases which with ⟨rfl, rfl⟩ | ⟨rfl, rfl⟩
  · rw [first, second]
  · rw [first, second, Nat.add_comm]

theorem Polling.client_left (h : Polling platform files memory commands m i j p q) :
    p.pc.toRole = 0 := by
  rcases h.polls with pc | pc <;> rw [pc] <;> rfl

/-- Before both have their roles, each step is one less to go, or the client polls. -/
theorem Arriving.step (h : Arriving platform files memory commands m k)
    (two : commands.length = 2) (suits : Suits platform files memory commands) {action : Action}
    (guard : Guarded ok m action) (next : step platform m action = some m') :
    (∃ i j p q o s, Running platform files commands ok m' i j p q o s) ∨
      ∃ k', Arriving platform files memory commands m' k' ∧
        (rolesLeft m' < rolesLeft m ∨
          rolesLeft m' = rolesLeft m ∧ k' = k ∧ action ≠ .move k .run) := by
  obtain ⟨l, rfl, -⟩ := guard
  obtain ⟨r, sys', r', found, moved, rfl⟩ := step_run next
  unfold rolesLeft
  cases h with
  | @gathering _ j p q h =>
    -- Whichever of the two it is.
    have either : ∀ {i j p q}, Gathering platform files memory commands m i j p q →
        runStep platform m.system p = some (sys', r') →
        ∃ k', Arriving platform files memory commands
            { system := sys', processes := m.processes.set i r' } k' ∧
          leftAt Pc.toRole { system := sys', processes := m.processes.set i r' } 0 +
              leftAt Pc.toRole { system := sys', processes := m.processes.set i r' } 1 <
            leftAt Pc.toRole m 0 + leftAt Pc.toRole m 1 := by
      intro i j p q h moved
      obtain ⟨sys₁, p₁, moved₁, less⟩ := h.advance suits
      cases moved.symm.trans moved₁
      rw [h.two.leftAt_add two]
      rcases h.step suits moved with there | there
      · rw [there.two.leftAt_add two]
        exact ⟨_, .gathering there, by omega⟩
      · rw [there.two.leftAt_add two]
        exact ⟨_, .polling there, by omega⟩
    rcases h.two.cases two found with ⟨rfl, rfl⟩ | ⟨rfl, rfl⟩
    · obtain ⟨k', there, less⟩ := either h moved
      exact Or.inr ⟨k', there, Or.inl less⟩
    · obtain ⟨k', there, less⟩ := either h.symm moved
      exact Or.inr ⟨k', there, Or.inl less⟩
  | @polling i _ p q h =>
    rcases h.two.cases two found with ⟨rfl, rfl⟩ | ⟨rfl, rfl⟩
    · have there := h.client_step moved
      refine Or.inr ⟨k, .polling there, Or.inr ⟨?_, rfl, ?_⟩⟩
      · rw [there.two.leftAt_add two, h.two.leftAt_add two, there.client_left, h.client_left]
      · have differ := h.two.differ
        simpa using differ
    · obtain ⟨sys₁, q₁, moved₁, less⟩ := h.advance suits
      cases moved.symm.trans moved₁
      rcases h.other_step suits moved with there | ⟨o, s, running, -⟩
      · refine Or.inr ⟨_, .polling there, Or.inl ?_⟩
        rw [there.two.leftAt_add two, h.two.leftAt_add two]
        omega
      · exact Or.inl ⟨_, _, _, _, o, s, running⟩

/-- Both get their roles. -/
theorem Arriving.eventually_running {state : Nat → State} {schedule : Nat → Action}
    (two : commands.length = 2) (suits : Suits platform files memory commands)
    (execution : Execution (MultiProcessTask.step platform) (Guarded ok) state schedule)
    (fair : ∀ k, k < 2 → Fair schedule (.move k .run))
    (here : Arriving platform files memory commands (state 0) k) :
    ∃ n i j p q o s, Running platform files commands ok (state n) i j p q o s := by
  let there (m : State) : Prop := ∃ i j p q o s, Running platform files commands ok m i j p q o s
  have turn : ∀ m k, Arriving platform files memory commands m k → ¬ there m →
      Fair schedule (.move k .run) := by
    intro m k arriving _
    apply fair
    cases arriving with
    | gathering h => exact two ▸ (List.getElem?_eq_some_iff.mp h.two.members.1).1
    | polling h => exact two ▸ (List.getElem?_eq_some_iff.mp h.two.members.2).1
  have advance : ∀ m k, Arriving platform files memory commands m k → ¬ there m →
      ∃ m', MultiProcessTask.step platform m (.move k .run) = some m' ∧
        (Guarded ok m (.move k .run) → there m' ∨
          ∃ k', Arriving platform files memory commands m' k' ∧ rolesLeft m' < rolesLeft m) := by
    intro m k arriving _
    obtain ⟨m', next⟩ : ∃ m', MultiProcessTask.step platform m (.move k .run) = some m' := by
      cases arriving with
      | gathering h =>
        obtain ⟨sys', p', moved, -⟩ := h.advance suits
        exact ⟨_, step_of_runStep h.two.first moved⟩
      | polling h =>
        obtain ⟨sys', q', moved, -⟩ := h.advance suits
        exact ⟨_, step_of_runStep h.two.second moved⟩
    refine ⟨m', next, ?_⟩
    intro guard
    rcases arriving.step two suits guard next with running | ⟨k', later, less | ⟨-, -, other⟩⟩
    · exact Or.inl running
    · exact Or.inr ⟨k', later, less⟩
    · exact absurd rfl other
  have other : ∀ m k action m', Arriving platform files memory commands m k → ¬ there m →
      Guarded ok m action → MultiProcessTask.step platform m action = some m' → there m' ∨
        ∃ k', Arriving platform files memory commands m' k' ∧
          (rolesLeft m' < rolesLeft m ∨
            rolesLeft m' = rolesLeft m ∧ Action.move k' .run = .move k .run) := by
    intro m k action m' arriving _ guard next
    rcases arriving.step two suits guard next with running | ⟨k', later, less | ⟨same, rfl, -⟩⟩
    · exact Or.inl running
    · exact Or.inr ⟨k', later, Or.inl less⟩
    · exact Or.inr ⟨k', later, Or.inr ⟨same, rfl⟩⟩
  obtain ⟨n, -, running⟩ := execution.eventually_along (fun m _ => rolesLeft m)
    (fun _ k => .move k .run) turn advance other 0 k here
  exact ⟨n, running⟩

/-- The chunks are where they should be. -/
theorem Running.keeping
    (h : Running platform files commands (Careful platform.page) m i j p q o s) :
    ∃ chunks, (∀ chunk ∈ chunks, chunk ≠ []) ∧ Keeping chunks s ∧
      MultiProcess.Reaches platform.page (Paced (Careful platform.page))
        (MultiProcess.start [] (FileDataTransferTask.callsFor chunks)) s := by
  obtain ⟨chunks, calls, -, filled⟩ := sends_eq platform files q.command
  have reached := h.reached
  rw [calls] at reached
  exact ⟨chunks, filled, (kept_of_reaches filled reached).1, reached⟩

/-- A process whose party has finished is done. -/
theorem Running.client_done (h : Running platform files commands ok m i j p q o s)
    (finished : s.receiver = .finished) : p.pc.done := by
  rcases h.client with pc | ⟨-, returned⟩
  · exact Or.inl (finished ▸ pc)
  · exact Or.inr (Or.inr returned)

theorem Running.server_done (h : Running platform files commands ok m i j p q o s)
    (finished : s.sender = .finished) : q.pc.done := by
  rcases h.server with ⟨pc, -⟩ | ⟨-, returned⟩
  · exact Or.inr (Or.inl (finished ▸ pc))
  · exact Or.inr (Or.inr returned)

theorem Pc.done.ended (h : p.pc.done) (left : p.pc.toEnd = 0) : p.pc = .ended (.ok ()) := by
  rcases h with pc | pc | ⟨rest, pc⟩ | pc
  · simp [pc, Pc.toEnd] at left
  · simp [pc, Pc.toEnd] at left
  · simp [pc, Pc.toEnd] at left
  · exact pc

/-- A step of the protocol makes the rank lower, or it is not the one that counts and leaves it to the
    same process. -/
theorem pairRank_step {page : Nat} {action : MultiProcess.Action} (keeping : Keeping chunks s)
    (keeping' : Keeping chunks t) (clean : MultiProcess.noFault s action)
    (next : MultiProcess.step page s action = some t)
    (same : p'.pc.toEnd + q'.pc.toEnd = p.pc.toEnd + q.pc.toEnd) :
    pairRank p' q' t < pairRank p q s ∨
      pairRank p' q' t = pairRank p q s ∧ pairTurn i j p' t = pairTurn i j p s ∧
        ¬ MultiProcess.Finished s ∧ MultiProcess.helpful s ≠ action := by
  rcases keeping.other clean next with less | ⟨equal, help⟩
  · exact Or.inl (Prod.Lex.toLex_lt_toLex.mpr (Or.inl less))
  · right
    have running : ¬ MultiProcess.Finished s := by
      rintro ⟨sender, receiver⟩
      rcases clean with rfl | rfl
      · simp [MultiProcess.step, MultiProcess.senderStep, sender] at next
      · simp [MultiProcess.step, MultiProcess.receiverStep, receiver] at next
    obtain ⟨u, next', less⟩ := @Keeping.advance page s chunks keeping running
    have running' : ¬ MultiProcess.Finished t := by
      intro finished
      rw [← equal, keeping'.rank_finished finished] at less
      exact absurd less (by simp [MultiProcess.rank, Prod.Lex.toLex_lt_toLex])
    refine ⟨by rw [pairRank, pairRank, equal, same], ?_, running, ?_⟩
    · rw [pairTurn, pairTurn, if_neg running, if_neg running', help]
    · rintro rfl
      cases next.symm.trans next'
      rw [equal] at less
      exact lt_irrefl _ less

/-- When both have their roles, each step makes the rank lower, or it is not the one that counts and
    leaves it to the same process. -/
theorem Running.step
    (h : Running platform files commands (Careful platform.page) m i j p q o s)
    (two : commands.length = 2) {action : Action}
    (guard : Guarded (Careful platform.page) m action)
    (next : MultiProcessTask.step platform m action = some m') :
    ∃ p' q' t, Running platform files commands (Careful platform.page) m' i j p' q' o t ∧
      (pairRank p' q' t < pairRank p q s ∨
        pairRank p' q' t = pairRank p q s ∧ pairTurn i j p' t = pairTurn i j p s ∧
          action ≠ .move (pairTurn i j p s) .run) := by
  obtain ⟨k, rfl, careful⟩ := guard
  obtain ⟨r, sys', r', found, moved, rfl⟩ := step_run next
  obtain ⟨chunks, filled, keeping, reached⟩ := h.keeping
  have differ := h.two.differ
  rcases h.two.cases two found with ⟨rfl, rfl⟩ | ⟨rfl, rfl⟩
  · obtain ⟨t, running, ⟨stepped, same⟩ | ⟨rfl, less⟩⟩ := h.client_step moved
    · have guard : Paced (Careful platform.page) s .receiver :=
        ⟨Or.inr rfl, fun sender => by cases sender⟩
      have keeping' := (kept_of_reaches filled (.tail reached guard stepped)).1
      refine ⟨_, _, t, running, ?_⟩
      rcases pairRank_step (i := k) (j := j) keeping keeping' guard.1 stepped
        (congrArg (· + q.pc.toEnd) same) with lower | ⟨equal, turn, unfinished, other⟩
      · exact Or.inl lower
      · refine Or.inr ⟨equal, turn, ?_⟩
        have sends : MultiProcess.helpful s = .sender := by
          unfold MultiProcess.helpful at other ⊢
          split at other
          · exact absurd rfl other
          · rename_i free
            exact if_neg free
        rw [pairTurn, if_neg unfinished, if_pos sends]
        simpa using differ
    · exact ⟨_, _, _, running, Or.inl (Prod.Lex.toLex_lt_toLex.mpr
        (Or.inr ⟨rfl, Nat.add_lt_add_right less _⟩))⟩
  · obtain ⟨t, running, ⟨stepped, same⟩ | ⟨rfl, less⟩⟩ :=
      h.server_step (Careful.blind _) careful moved
    · have guard : Paced (Careful platform.page) s .sender := by
        refine ⟨Or.inl rfl, fun _ => ?_⟩
        rcases h.server with ⟨pc, calls⟩ | ⟨finished, -⟩
        · exact (Careful.blind _ s [] 0 []).mp (careful i _ (h.picture pc calls))
        · exact .finished finished
      have stepped' : MultiProcess.step platform.page s .sender = some t := stepped
      have keeping' := (kept_of_reaches filled (.tail reached guard stepped')).1
      refine ⟨_, _, t, running, ?_⟩
      rcases pairRank_step (i := i) (j := k) keeping keeping' guard.1 stepped'
        (congrArg (p.pc.toEnd + ·) same) with lower | ⟨equal, turn, unfinished, other⟩
      · exact Or.inl lower
      · refine Or.inr ⟨equal, turn, ?_⟩
        rw [pairTurn, if_neg unfinished, if_neg other]
        simpa using differ.symm
    · exact ⟨_, _, _, running, Or.inl (Prod.Lex.toLex_lt_toLex.mpr
        (Or.inr ⟨rfl, Nat.add_lt_add_left less _⟩))⟩

/-- The process whose step counts can take it. -/
theorem Running.turn_enabled
    (h : Running platform files commands (Careful platform.page) m i j p q o s)
    (short : ¬ (p.pc = .ended (.ok ()) ∧ q.pc = .ended (.ok ()))) :
    ∃ m', MultiProcessTask.step platform m (.move (pairTurn i j p s) .run) = some m' := by
  unfold pairTurn
  by_cases finished : MultiProcess.Finished s
  · rw [if_pos finished]
    have first := h.client_done finished.2
    have second := h.server_done finished.1
    by_cases gone : p.pc.toEnd = 0
    · rw [if_pos gone]
      have unfinished : q.pc ≠ .ended (.ok ()) := fun ended => short ⟨first.ended gone, ended⟩
      obtain ⟨sys', q', moved, -⟩ := @Pc.done.advance platform q m.system second unfinished
      exact ⟨_, step_of_runStep h.two.second moved⟩
    · rw [if_neg gone]
      have unfinished : p.pc ≠ .ended (.ok ()) := by
        intro ended
        rw [ended] at gone
        exact gone rfl
      obtain ⟨sys', p', moved, -⟩ := @Pc.done.advance platform p m.system first unfinished
      exact ⟨_, step_of_runStep h.two.first moved⟩
  · rw [if_neg finished]
    obtain ⟨chunks, filled, keeping, reached⟩ := h.keeping
    obtain ⟨t, next, -⟩ := @Keeping.advance platform.page s chunks keeping finished
    by_cases sends : MultiProcess.helpful s = .sender
    · rw [if_pos sends]
      rw [sends] at next
      have stepped : MultiProcess.senderStep s = some t := next
      rcases h.server with ⟨pc, calls⟩ | ⟨left, -⟩
      · exact ⟨_, step_of_runStep h.two.second (h.server_moves pc calls stepped)⟩
      · simp [MultiProcess.senderStep, left] at stepped
    · rw [if_neg sends]
      have receives : MultiProcess.helpful s = .receiver := by
        unfold MultiProcess.helpful at sends ⊢
        split at sends
        · rename_i blocked
          exact if_pos blocked
        · exact absurd rfl sends
      rw [receives] at next
      have stepped : MultiProcess.receiverStep platform.page s = some t := next
      have guard : Paced (Careful platform.page) s .receiver :=
        ⟨Or.inr rfl, fun sender => by cases sender⟩
      obtain ⟨bytes, delivered, -⟩ := delivered_prefix filled (.tail reached guard next)
      rcases h.client with pc | ⟨left, -⟩
      · obtain ⟨sys', p', moved, -⟩ := h.client_moves pc stepped delivered
        exact ⟨_, step_of_runStep h.two.first moved⟩
      · simp [MultiProcess.receiverStep, left] at stepped

/-- Both end. -/
theorem Running.eventually_ended {state : Nat → State} {schedule : Nat → Action} {n : Nat}
    (two : commands.length = 2)
    (execution : Execution (MultiProcessTask.step platform) (Guarded (Careful platform.page)) state
      schedule)
    (fair : ∀ k, k < 2 → Fair schedule (.move k .run))
    (here : Running platform files commands (Careful platform.page) (state n) i j p q o s) :
    ∃ n p q s, Running platform files commands (Careful platform.page) (state n) i j p q o s ∧
      p.pc = .ended (.ok ()) ∧ q.pc = .ended (.ok ()) := by
  let I (m : State) (x : Process × Process × MultiProcess.State) : Prop :=
    Running platform files commands (Careful platform.page) m i j x.1 x.2.1 o x.2.2
  let there (m : State) : Prop := ∃ p q s,
    Running platform files commands (Careful platform.page) m i j p q o s ∧
      p.pc = .ended (.ok ()) ∧ q.pc = .ended (.ok ())
  have turn : ∀ m x, I m x → ¬ there m → Fair schedule (.move (pairTurn i j x.1 x.2.2) .run) := by
    intro m x running _
    apply fair
    have first := (List.getElem?_eq_some_iff.mp running.two.members.1).1
    have second := (List.getElem?_eq_some_iff.mp running.two.members.2).1
    unfold pairTurn
    split
    · split <;> omega
    · split <;> omega
  have advance : ∀ m x, I m x → ¬ there m →
      ∃ m', MultiProcessTask.step platform m (.move (pairTurn i j x.1 x.2.2) .run) = some m' ∧
        (Guarded (Careful platform.page) m (.move (pairTurn i j x.1 x.2.2) .run) → there m' ∨
          ∃ y, I m' y ∧ pairRank y.1 y.2.1 y.2.2 < pairRank x.1 x.2.1 x.2.2) := by
    intro m x running short
    obtain ⟨m', next⟩ := running.turn_enabled fun ended => short ⟨_, _, _, running, ended⟩
    refine ⟨m', next, ?_⟩
    intro guard
    obtain ⟨p', q', t, running', less | ⟨-, -, other⟩⟩ := running.step two guard next
    · exact Or.inr ⟨(p', q', t), running', less⟩
    · exact absurd rfl other
  have other : ∀ m x action m', I m x → ¬ there m → Guarded (Careful platform.page) m action →
      MultiProcessTask.step platform m action = some m' → there m' ∨
        ∃ y, I m' y ∧ (pairRank y.1 y.2.1 y.2.2 < pairRank x.1 x.2.1 x.2.2 ∨
          pairRank y.1 y.2.1 y.2.2 = pairRank x.1 x.2.1 x.2.2 ∧
            Action.move (pairTurn i j y.1 y.2.2) .run = .move (pairTurn i j x.1 x.2.2) .run) := by
    intro m x action m' running _ guard next
    obtain ⟨p', q', t, running', less | ⟨same, sameTurn, -⟩⟩ := running.step two guard next
    · exact Or.inr ⟨(p', q', t), running', Or.inl less⟩
    · exact Or.inr ⟨(p', q', t), running', Or.inr ⟨same, by rw [sameTurn]⟩⟩
  obtain ⟨n', -, ended⟩ := execution.eventually_along
    (fun _ x => pairRank x.1 x.2.1 x.2.2) (fun _ x => .move (pairTurn i j x.1 x.2.2) .run) turn
    advance other n (p, q, s) here
  exact ⟨n', ended⟩

/-- For every two processes that suit each other and every execution from their start in which both
    get their turn again and again, nothing fails and each step of the server is careful: both
    processes end without an exception, and the destination of one of them then holds the source of
    the other one. -/
theorem fair_pair_copies (platform : Platform) (files : FileSystem) (memory : Path)
    (commands : List SCommand) (two : commands.length = 2)
    (suits : Suits platform files memory commands) {state : Nat → State} {schedule : Nat → Action}
    (begun : state 0 = launched files commands)
    (execution : Execution (step platform) (Guarded (Careful platform.page)) state schedule)
    (first : Fair schedule (.move 0 .run)) (second : Fair schedule (.move 1 .run)) :
    ∃ (n i j : Nat) (client server : SCommand), i ≠ j ∧ commands[i]? = some client ∧
      commands[j]? = some server ∧ (∀ p ∈ (state n).processes, p.pc = .ended (.ok ())) ∧
      (state n).system.files.files client.destFile = some (server.content platform files) := by
  have fair : ∀ k, k < 2 → Fair schedule (.move k .run) := by
    intro k inside
    rcases k with _ | _ | k
    · exact first
    · exact second
    · omega
  have arriving : Arriving platform files memory commands (state 0) 0 := by
    obtain ⟨a, b, rfl⟩ := List.length_eq_two.mp two
    rw [begun]
    exact .gathering (j := 1) (p := .start a) (q := .start b)
      ⟨⟨rfl, rfl, rfl, by decide⟩, .fresh files, rfl, rfl, .start a, .start b⟩
  obtain ⟨n, i, j, p, q, o, s, running⟩ := arriving.eventually_running two suits execution fair
  obtain ⟨n, p, q, s, running, ended, ended'⟩ := running.eventually_ended two execution fair
  obtain ⟨isClient, isServer⟩ := running.two.members
  refine ⟨n, i, j, _, _, running.two.differ, isClient, isServer, ?_, ?_⟩
  · intro r member
    obtain ⟨k, found⟩ := List.getElem?_of_mem member
    rcases running.two.cases two found with ⟨-, rfl⟩ | ⟨-, rfl⟩
    · exact ended
    · exact ended'
  · apply running.copied
    rw [ended]
    rfl

/-- Two processes with this command, in an execution that goes on with their turns for ever. -/
theorem fair_pair_copies_small : ∃ (state : Nat → State) (n : Nat),
    state 0 = launched threeBytes [aToB, aToB] ∧
      (∀ p ∈ (state n).processes, p.pc = .ended (.ok ())) ∧
      (state n).system.files.files (ascii "b") = some [1, 2, 3] := by
  obtain ⟨m, p, q, o, s, run, running, ended, ended'⟩ := careful_run suits_aToB
  have final : ∀ n, step (.permissive []) m
      (cycle (.move 0 .run) [.move 1 .run] n) = none := by
    intro n
    have member := cycle_mem (Action.move 0 .run) [.move 1 .run] n
    simp only [List.mem_cons, List.not_mem_nil, or_false] at member
    rcases member with same | same
    · rw [same]
      simp [step, move, runStep, running.two.first, ended]
    · rw [same]
      simp [step, move, runStep, running.two.second, ended']
  obtain ⟨state, schedule, begun, execution, fair⟩ := Execution.of_reaches run _ final
  obtain ⟨n, i, j, client, server, -, isClient, isServer, all, content⟩ :=
    fair_pair_copies (.permissive []) threeBytes (ascii "m") [aToB, aToB] rfl suits_aToB begun
      execution (fair _ (cycle_fair (by simp))) (fair _ (cycle_fair (by simp)))
  have same : ∀ (k : Nat) (command : SCommand), [aToB, aToB][k]? = some command →
      command = aToB := by
    intro k command found
    simpa using List.mem_of_getElem? found
  cases same i client isClient
  cases same j server isServer
  exact ⟨state, n, begun, all, content⟩

end FileTransfer.MultiProcessTask
