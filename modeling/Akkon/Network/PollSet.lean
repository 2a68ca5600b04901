import Akkon.Network.Server
import Akkon.ToMathlib.StepSystem

/-!
# The poll set

What holds of `m_fds` at the start of every iteration of the server loop, for every order of
accepts, receives, actions of other threads and lockdown transitions. An entry is closed and marked
in three places, `disconnectAll` closes without a mark and cuts the list afterwards, and the marked
entries are erased later; in between the entries and the open sockets agree up to the marks.

* `pollSystem`: the server loop with the actions that other threads push;
* `PollSet`: the listening socket first, and behind it each open client socket once;
* `ClosedOnce`: no client fd is closed twice unless `accept` has returned it in between;
* `Tracks`: the agreement of entries, sockets and trace, with a lemma for each thing that happens to
  an entry; `PollInv` is the invariant of the loop made of it;
* `pollSet_of_reachable`: the two properties over all runs.
-/

namespace Server

open Cpp Security

/-! ## The properties -/

/-- The fd numbers of the entries. -/
def fds (s : Server) : List ℤ := s.m_fds.map PollFd.fd

/-- What is expected of `m_fds` at the start of an iteration. -/
structure PollSet (s : Server) : Prop where
  /-- `m_fds[0]` is the listening socket. -/
  listener : s.fds.head? = some s.m_server_fd
  /-- Every other entry is an open client socket. -/
  clients : ∀ fd ∈ s.fds.tail, (s.sockets fd).isSome
  nodup : s.fds.Nodup
  /-- Every open client socket occurs. -/
  covered : ∀ fd, (s.sockets fd).isSome → fd ∈ s.fds.tail

/-- No client fd is closed twice unless `accept` has returned it in between. The events are in
reverse order, and `-1` is no client. -/
def ClosedOnce (trace : List Event) : Prop :=
  ∀ fd ≠ -1, ∀ later between earlier conn conn',
    trace = later ++ .closed fd conn :: (between ++ .closed fd conn' :: earlier) →
      ∃ conn'', .accepted fd conn'' ∈ between

/-! ## The loop and the actions of other threads -/

/-- A step of the loop in a lockdown state, or an action pushed by another thread. -/
inductive PollLabel
  | loop (lockdown : LockdownState) (env : LoopEnv)
  | push (action : ClientAction)

/-- The server loop in any company. Actions are for fd numbers that a handler was called with, and
it is never called with the number of the listening socket. -/
def pollSystem (m_server_fd : ℤ) : StepSystem Server PollLabel where
  init s := s = .listening m_server_fd
  step s
    | .loop lockdown env => s.loopStep lockdown env
    | .push action => if action.fd = s.m_server_fd then none else s.pushAction action

/-! ## Open fd numbers in a trace -/

/-- An fd number is open after the events of a trace. -/
def openAfter : List Event → ℤ → Bool
  | [], _ => false
  | .accepted fd' _ :: trace, fd => fd == fd' || openAfter trace fd
  | .closed fd' _ :: trace, fd => fd != fd' && openAfter trace fd
  | _ :: trace, fd => openAfter trace fd

/-- Every client fd that is closed is open before. -/
def ClosesOpen (trace : List Event) : Prop :=
  ∀ fd ≠ -1, ∀ later earlier conn, trace = later ++ .closed fd conn :: earlier →
    openAfter earlier fd = true

/-- Only `accept` opens an fd number again. -/
theorem openAfter_append {trace trace' : List Event} {fd : ℤ}
    (h : ∀ conn, .accepted fd conn ∉ trace') (hopen : openAfter (trace' ++ trace) fd = true) :
    openAfter trace fd = true := by
  induction trace' with
  | nil => exact hopen
  | cons e trace' ih =>
    have hrest : ∀ conn, .accepted fd conn ∉ trace' := fun conn he =>
      h conn (List.mem_cons_of_mem _ he)
    refine ih hrest ?_
    cases e with
    | accepted fd' conn =>
      have hne : fd ≠ fd' := by
        rintro rfl
        exact h conn List.mem_cons_self
      simpa [openAfter, hne] using hopen
    | closed fd' conn =>
      simp only [List.cons_append, openAfter, Bool.and_eq_true] at hopen
      exact hopen.2
    | _ => exact hopen

theorem ClosesOpen.closedOnce {trace : List Event} (h : ClosesOpen trace) : ClosedOnce trace := by
  intro fd hfd later between earlier conn conn' htrace
  by_contra hnot
  -- without an `accept` in between the first close has left the number closed
  have hopen := h fd hfd later _ conn htrace
  have hclosed := openAfter_append (fun conn'' he => hnot ⟨conn'', he⟩) hopen
  simp [openAfter] at hclosed

/-- A further event. -/
theorem ClosesOpen.cons {trace : List Event} {e : Event} (h : ClosesOpen trace)
    (he : ∀ fd ≠ -1, ∀ conn, e = .closed fd conn → openAfter trace fd = true) :
    ClosesOpen (e :: trace) := by
  intro fd hfd later earlier conn htrace
  rcases later with _ | ⟨e', later⟩
  · obtain ⟨rfl, rfl⟩ := List.cons.inj htrace
    exact he fd hfd conn rfl
  · exact h fd hfd later earlier conn (List.cons.inj htrace).2

/-! ## Entries, sockets and trace -/

/-- The entries from `cut` on that are not marked are the open sockets, each of them once, and the
trace agrees. -/
structure Tracks (listener : ℤ) (fds : List ℤ) (cut : ℕ) (sockets : ℤ → Option ℕ)
    (trace : List Event) : Prop where
  listener : fds.head? = some listener
  nodup : (fds.filter (· ≠ -1)).Nodup
  opened : ∀ fd, (sockets fd).isSome ↔ fd ≠ -1 ∧ fd ∈ fds.drop cut
  agrees : ∀ fd, openAfter trace fd = (sockets fd).isSome
  closes : ClosesOpen trace

namespace Tracks

variable {listener : ℤ} {fds : List ℤ} {cut : ℕ} {sockets : ℤ → Option ℕ} {trace : List Event}

/-- Behind a list without duplicates, up to marks, its last element does not occur again. -/
theorem not_mem_of_nodup {fd : ℤ} {xs ys : List ℤ} (h : ((xs ++ fd :: ys).filter (· ≠ -1)).Nodup)
    (hfd : fd ≠ -1) : fd ∉ xs ∧ fd ∉ ys := by
  rw [List.filter_append, List.filter_cons_of_pos (by simpa using hfd)] at h
  obtain ⟨-, hcons, hdisjoint⟩ := List.nodup_append.mp h
  constructor
  · intro hmem
    exact hdisjoint fd (List.mem_filter.mpr ⟨hmem, by simpa using hfd⟩) fd List.mem_cons_self rfl
  · intro hmem
    exact (List.nodup_cons.mp hcons).1 (List.mem_filter.mpr ⟨hmem, by simpa using hfd⟩)

theorem not_mem_tail_of_nodup {fd : ℤ} {fds : List ℤ}
    (h : ((fd :: fds).filter (· ≠ -1)).Nodup) (hfd : fd ≠ -1) : fd ∉ fds :=
  (@not_mem_of_nodup fd [] fds h hfd).2

/-- An event of neither kind. -/
theorem record (h : Tracks listener fds cut sockets trace) {e : Event}
    (haccepted : ∀ fd conn, e ≠ .accepted fd conn) (hclosed : ∀ fd conn, e ≠ .closed fd conn) :
    Tracks listener fds cut sockets (e :: trace) where
  listener := h.listener
  nodup := h.nodup
  opened := h.opened
  agrees fd := by
    rw [← h.agrees fd]
    cases e with
    | accepted fd conn => exact absurd rfl (haccepted fd conn)
    | closed fd conn => exact absurd rfl (hclosed fd conn)
    | _ => rfl
  closes := h.closes.cons fun fd _ conn he => absurd he (hclosed fd conn)

/-- A number that is closed is no longer among the entries looked at. -/
theorem close (h : Tracks listener fds cut sockets trace) {fd : ℤ} {fds' : List ℤ} {cut' : ℕ}
    (hopen : fd ≠ -1 → fd ∈ fds.drop cut) (hlistener : fds'.head? = some listener)
    (hnodup : (fds'.filter (· ≠ -1)).Nodup)
    (hdrop : ∀ fd', fd' ≠ -1 → (fd' ∈ fds'.drop cut' ↔ fd' ∈ fds.drop cut ∧ fd' ≠ fd)) :
    Tracks listener fds' cut' (Function.update sockets fd none)
      (.closed fd (sockets fd) :: trace) where
  listener := hlistener
  nodup := hnodup
  opened fd' := by
    rw [Function.update_apply]
    split_ifs with heq
    · simp only [Option.isSome_none, Bool.false_eq_true, false_iff, not_and]
      intro hne hmem
      exact ((hdrop fd' hne).mp hmem).2 heq
    · rw [h.opened fd']
      refine and_congr_right fun hne => ?_
      rw [hdrop fd' hne]
      exact (and_iff_left heq).symm
  agrees fd' := by
    rw [Function.update_apply, openAfter, h.agrees fd']
    split_ifs with heq <;> simp [heq]
  closes := h.closes.cons fun fd' hne conn he => by
    obtain ⟨rfl, -⟩ := Event.closed.inj he
    rw [h.agrees fd, h.opened fd]
    exact ⟨hne, hopen hne⟩

/-- `accept` returns a number that is not open. -/
theorem accept (h : Tracks listener fds 1 sockets trace) {fd : ℤ} {conn : ℕ} (hpos : 0 ≤ fd)
    (hlistener : fd ≠ listener) (hclosed : sockets fd = none) :
    Tracks listener (fds ++ [fd]) 1 (Function.update sockets fd (some conn))
      (.accepted fd conn :: trace) := by
  have hfd : fd ≠ -1 := by omega
  obtain ⟨rest, rfl⟩ : ∃ rest, fds = listener :: rest := by
    have hhead := h.listener
    cases fds with
    | nil => cases hhead
    | cons fd' rest =>
      obtain rfl := Option.some.inj hhead
      exact ⟨rest, rfl⟩
  -- A number that `accept` returns is closed so far, so it is in no entry.
  have hnot : fd ∉ rest := by
    intro hmem
    have hopen := (h.opened fd).mpr ⟨hfd, hmem⟩
    rw [hclosed] at hopen
    cases hopen
  have hlast : [fd].filter (· ≠ -1) = [fd] := List.filter_cons_of_pos (by simpa using hfd)
  -- The new entry is the only one for the new number, and the number is open from now on.
  refine ⟨rfl, ?_, fun fd' => ?_, fun fd' => ?_, h.closes.cons ?_⟩
  · rw [List.filter_append, hlast]
    refine List.nodup_append.mpr ⟨h.nodup, List.nodup_singleton fd, ?_⟩
    intro x hx y hy
    rw [List.mem_singleton.mp hy]
    rintro rfl
    rcases List.mem_cons.mp (List.mem_of_mem_filter hx) with heq | hmem
    · exact hlistener heq
    · exact hnot hmem
  · rw [Function.update_apply]
    have hopened := h.opened fd'
    simp only [List.cons_append, List.drop_succ_cons, List.drop_zero, List.mem_append,
      List.mem_singleton] at hopened ⊢
    split_ifs with heq
    · simp [heq, hfd]
    · rw [hopened]
      simp [heq]
  · rw [Function.update_apply, openAfter, h.agrees fd']
    split_ifs with heq <;> simp [heq]
  · intro fd' _ conn' he
    cases he

/-- Marked entries are erased. -/
theorem erase (h : Tracks listener fds 1 sockets trace) (hlistener : listener ≠ -1) :
    Tracks listener (fds.filter (· ≠ -1)) 1 sockets trace := by
  cases fds with
  | nil => cases h.listener
  | cons fd rest =>
    obtain rfl := Option.some.inj h.listener
    rw [List.filter_cons_of_pos (by simpa using hlistener)]
    refine ⟨rfl, ?_, fun fd' => ?_, h.agrees, h.closes⟩
    · have hnodup := h.nodup
      rw [List.filter_cons_of_pos (by simpa using hlistener)] at hnodup ⊢
      rw [List.filter_filter]
      simpa using hnodup
    · rw [h.opened fd']
      refine and_congr_right fun hne => ?_
      simp [hne]

end Tracks

/-! ## Marking -/

/-- The entries with an fd number are marked. -/
def mark (fd : ℤ) (fds : List ℤ) : List ℤ := fds.map fun fd' => if fd' = fd then -1 else fd'

theorem mem_mark {fd fd' : ℤ} {fds : List ℤ} (hne : fd' ≠ -1) :
    fd' ∈ mark fd fds ↔ fd' ∈ fds ∧ fd' ≠ fd := by
  rw [mark, List.mem_map]
  constructor
  · rintro ⟨x, hx, heq⟩
    split_ifs at heq with hfd
    · exact absurd heq.symm hne
    · subst heq
      exact ⟨hx, hfd⟩
  · rintro ⟨hmem, hfd⟩
    exact ⟨fd', hmem, if_neg hfd⟩

theorem filter_mark (fd : ℤ) (fds : List ℤ) :
    (mark fd fds).filter (· ≠ -1) = (fds.filter (· ≠ -1)).filter (· ≠ fd) := by
  induction fds with
  | nil => rfl
  | cons fd' fds ih =>
    rw [mark, List.map_cons, ← mark]
    by_cases hfd : fd' = fd <;> by_cases hne : fd' = -1 <;> simp_all

theorem mark_of_not_mem {fd : ℤ} {fds : List ℤ} (h : fd ∉ fds) : mark fd fds = fds := by
  have hid : ∀ fd' ∈ fds, (if fd' = fd then -1 else fd') = id fd' := by
    intro fd' hfd'
    rw [if_neg fun heq : fd' = fd => h (heq ▸ hfd')]
    rfl
  rw [mark, List.map_congr_left hid, List.map_id]

theorem mark_marked (fds : List ℤ) : mark (-1) fds = fds := by
  have hid : ∀ fd ∈ fds, (if fd = -1 then -1 else fd) = id fd := fun fd _ => by
    split_ifs with heq
    · exact heq.symm
    · rfl
  rw [mark, List.map_congr_left hid, List.map_id]

/-- An entry that is marked by its index. -/
theorem set_eq_mark {fd : ℤ} {fds : List ℤ} {i : ℕ} (hi : fds[i]? = some fd)
    (hnodup : (fds.filter (· ≠ -1)).Nodup) : fds.set i (-1) = mark fd fds := by
  obtain ⟨hlt, hget⟩ := List.getElem?_eq_some_iff.mp hi
  have hsplit : fds = fds.take i ++ fd :: fds.drop (i + 1) := by
    rw [← hget, ← List.drop_eq_getElem_cons hlt, List.take_append_drop]
  rw [List.set_eq_take_append_cons_drop, if_pos hlt]
  by_cases hfd : fd = -1
  · rw [hfd, mark_marked, ← hfd]
    exact hsplit.symm
  · rw [hsplit] at hnodup
    obtain ⟨hleft, hright⟩ := Tracks.not_mem_of_nodup hnodup hfd
    conv_rhs => rw [hsplit]
    rw [mark, List.map_append, List.map_cons, if_pos rfl, ← mark, ← mark, mark_of_not_mem hleft,
      mark_of_not_mem hright]

namespace Tracks

variable {listener : ℤ} {fds : List ℤ} {cut : ℕ} {sockets : ℤ → Option ℕ} {trace : List Event}

/-- A client is closed and its entry marked. -/
theorem mark (h : Tracks listener fds 1 sockets trace) {fd : ℤ} (hne : fd ≠ listener)
    (hopen : fd ≠ -1 → fd ∈ fds.drop 1) :
    Tracks listener (mark fd fds) 1 (Function.update sockets fd none)
      (.closed fd (sockets fd) :: trace) := by
  refine h.close hopen ?_ ?_ fun fd' hfd' => ?_
  · rw [Server.mark, List.head?_map, h.listener, Option.map_some, if_neg hne.symm]
  · rw [filter_mark]
    exact h.nodup.filter _
  · rw [Server.mark, ← List.map_drop, ← Server.mark, mem_mark hfd']

/-- `close` of `-1` fails. -/
theorem closeMarked (h : Tracks listener fds cut sockets trace) :
    Tracks listener fds cut (Function.update sockets (-1) none)
      (.closed (-1) (sockets (-1)) :: trace) :=
  h.close (fun hne => absurd rfl hne) h.listener h.nodup fun _ hne => (and_iff_left hne).symm

end Tracks

/-! ## The invariant of the loop -/

/-- The first entry whose socket `disconnectAll` has not closed. -/
def firstOpen (s : Server) : ℕ :=
  match s.phase with
  | .disconnecting i => i
  | _ => 1

/-- The phases in which entries can be marked. -/
def LoopPhase.Marks : LoopPhase → Prop
  | .actions _ => True
  | .receiving _ => True
  | _ => False

/-- The invariant of the server loop. -/
structure PollInv (s : Server) : Prop where
  pos : 0 ≤ s.m_server_fd
  tracks : Tracks s.m_server_fd s.fds s.firstOpen s.sockets s.trace
  unmarked : ¬ s.phase.Marks → -1 ∉ s.fds
  /-- The loops over the entries start behind the listening socket. -/
  index : ∀ i, s.phase = .disconnecting i ∨ s.phase = .receiving i → 1 ≤ i
  /-- No action is for the listening socket. -/
  actions : ∀ action ∈ s.actionList, action.fd ≠ s.m_server_fd

namespace PollInv

variable {s s' : Server}

theorem ne_marked (h : PollInv s) : s.m_server_fd ≠ -1 := by
  have := h.pos
  omega

/-- The entries are the listening socket and others. -/
theorem exists_fds (h : PollInv s) : ∃ rest, s.fds = s.m_server_fd :: rest := by
  have hhead := h.tracks.listener
  cases hfds : s.fds with
  | nil =>
    rw [hfds] at hhead
    cases hhead
  | cons fd rest =>
    rw [hfds] at hhead
    exact ⟨rest, by rw [Option.some.inj hhead]⟩

/-- The actions that are pending are among those looked at. -/
theorem pending (h : PollInv s) : ∀ action ∈ s.m_pending_actions, action.fd ≠ s.m_server_fd := by
  intro action haction
  refine h.actions action ?_
  unfold actionList
  split
  · exact List.mem_append_left _ haction
  · exact haction

/-- At the start of an iteration the poll set is as expected. -/
theorem pollSet (h : PollInv s) (hphase : s.phase = .top) : s.PollSet := by
  obtain ⟨rest, hfds⟩ := h.exists_fds
  have hmarked : -1 ∉ s.fds := h.unmarked (by simp [hphase, LoopPhase.Marks])
  have hopened := h.tracks.opened
  have hcut : s.firstOpen = 1 := by rw [firstOpen, hphase]
  have hnodup := h.tracks.nodup
  rw [List.filter_eq_self.mpr] at hnodup
  · refine ⟨h.tracks.listener, fun fd hfd => ?_, hnodup, fun fd hfd => ?_⟩
    · rw [hopened, hcut, List.drop_one]
      exact ⟨fun heq => hmarked (heq ▸ List.mem_of_mem_tail hfd), hfd⟩
    · rw [hopened, hcut, List.drop_one] at hfd
      exact hfd.2
  · intro fd hfd
    have hne : fd ≠ -1 := fun heq => hmarked (heq ▸ hfd)
    simpa using hne

/-- A step that leaves the entries, the sockets and the trace alone, between phases that look at the
entries in the same way. -/
theorem of_quiet (h : PollInv s) (hserver : s'.m_server_fd = s.m_server_fd)
    (hfds : s'.fds = s.fds) (hopen : s'.firstOpen = s.firstOpen)
    (hsockets : s'.sockets = s.sockets) (htrace : s'.trace = s.trace)
    (hmarks : s.phase.Marks → s'.phase.Marks)
    (hindex : ∀ i, s'.phase = .disconnecting i ∨ s'.phase = .receiving i → 1 ≤ i)
    (hactions : ∀ action ∈ s'.actionList, action.fd ≠ s.m_server_fd) : PollInv s' where
  pos := hserver ▸ h.pos
  tracks := by
    rw [hserver, hfds, hopen, hsockets, htrace]
    exact h.tracks
  unmarked hnot := hfds ▸ h.unmarked fun hm => hnot (hmarks hm)
  index := hindex
  actions := by
    rw [hserver]
    exact hactions

/-- The state in front of the loop. -/
theorem listening {m_server_fd : ℤ} (hpos : 0 ≤ m_server_fd) :
    PollInv (.listening m_server_fd) where
  pos := hpos
  tracks := by
    have hne : m_server_fd ≠ -1 := by omega
    refine ⟨rfl, ?_, fun fd => ?_, fun _ => rfl, ?_⟩
    · show ([m_server_fd].filter (· ≠ -1)).Nodup
      rw [List.filter_cons_of_pos (by simpa using hne), List.filter_nil]
      exact List.nodup_singleton _
    · show (none : Option ℕ).isSome ↔ fd ≠ -1 ∧ fd ∈ []
      simp
    · intro fd _ later earlier conn htrace
      simp [Server.listening] at htrace
  unmarked _ := by
    show -1 ∉ [m_server_fd]
    rw [List.mem_singleton]
    omega
  index i h := by
    rcases h with h | h
    · cases h
    · cases h
  actions := by simp [Server.listening, actionList]

end PollInv

/-! ## One step -/

section Step

variable {s s' : Server} {lockdown : LockdownState} {env : LoopEnv}

theorem closeMatching_of_not_mem {fd : ℤ} {pfds : List PollFd} (h : fd ∉ pfds.map PollFd.fd)
    (s : Server) : s.closeMatching fd pfds = s := by
  induction pfds with
  | nil => rfl
  | cons pfd pfds ih =>
    rw [List.map_cons, List.mem_cons, not_or] at h
    rw [closeMatching, if_neg (Ne.symm h.1), ih h.2]

/-- An fd number that occurs at most once is closed at most once. -/
theorem closeMatching_of_nodup {fd : ℤ} (hfd : fd ≠ -1) {pfds : List PollFd}
    (hnodup : ((pfds.map PollFd.fd).filter (· ≠ -1)).Nodup) (s : Server) :
    s.closeMatching fd pfds =
      if fd ∈ pfds.map PollFd.fd then s.closeSocket fd else s := by
  induction pfds with
  | nil => rfl
  | cons pfd pfds ih =>
    rw [List.map_cons] at hnodup ⊢
    rw [closeMatching]
    by_cases heq : pfd.fd = fd
    · -- it does not occur in the rest
      have hnot : fd ∉ pfds.map PollFd.fd := by
        rw [heq] at hnodup
        exact Tracks.not_mem_tail_of_nodup hnodup hfd
      rw [if_pos heq, closeMatching_of_not_mem hnot, if_pos (heq ▸ List.mem_cons_self)]
    · have htail : ((pfds.map PollFd.fd).filter (· ≠ -1)).Nodup :=
        hnodup.sublist ((List.sublist_cons_self _ _).filter _)
      have hmem : fd ∈ pfd.fd :: pfds.map PollFd.fd ↔ fd ∈ pfds.map PollFd.fd := by
        rw [List.mem_cons]
        exact or_iff_right (Ne.symm heq)
      simp only [if_neg heq, ih htail, hmem]

/-- Closing marked entries changes nothing but the trace. -/
theorem Tracks.closeMatching_marked {listener : ℤ} {fds : List ℤ} {cut : ℕ} (pfds : List PollFd)
    (h : Tracks listener fds cut s.sockets s.trace) :
    Tracks listener fds cut (s.closeMatching (-1) pfds).sockets
      (s.closeMatching (-1) pfds).trace := by
  induction pfds generalizing s with
  | nil => exact h
  | cons pfd pfds ih =>
    rw [closeMatching]
    split_ifs
    · exact ih h.closeMarked
    · exact ih h

/-- The entries an action leaves behind. -/
theorem fds_applyAction (action : ClientAction) (s : Server) :
    (s.applyAction action).fds =
      if action.type = .CLOSE_CLIENT then mark action.fd s.fds else s.fds := by
  have happly (pfd : PollFd) : (action.applyTo pfd).fd =
      if action.type = .CLOSE_CLIENT then (if pfd.fd = action.fd then -1 else pfd.fd)
      else pfd.fd := by
    rw [ClientAction.applyTo]
    cases htype : action.type <;> by_cases hfd : pfd.fd = action.fd <;> simp [hfd]
  show ((s.m_fds.map action.applyTo).map PollFd.fd) = _
  rw [List.map_map]
  simp only [Function.comp_def, happly]
  split_ifs
  · rw [mark, fds, List.map_map]
    rfl
  · rfl

/-- An action for another socket than the listening one. -/
theorem PollInv.tracks_applyAction (h : PollInv s) (hcut : s.firstOpen = 1) {action : ClientAction}
    (hne : action.fd ≠ s.m_server_fd) :
    Tracks s.m_server_fd (s.applyAction action).fds 1 (s.applyAction action).sockets
      (s.applyAction action).trace := by
  have htracks : Tracks s.m_server_fd s.fds 1 s.sockets s.trace := hcut ▸ h.tracks
  -- the event of the action is neither a close nor an accept
  have hrecorded : Tracks s.m_server_fd s.fds 1 (s.recordApplied action).sockets
      (s.recordApplied action).trace := by
    unfold recordApplied
    split
    · split
      · exact htracks.record (by simp) (by simp)
      · exact htracks
    · exact htracks
  rw [fds_applyAction]
  by_cases htype : action.type = .CLOSE_CLIENT
  · have happly : s.applyAction action =
        { (s.recordApplied action).closeMatching action.fd s.m_fds with
          m_fds := s.m_fds.map action.applyTo } := by
      rw [applyAction, if_pos htype]
    rw [if_pos htype, happly]
    by_cases hmarked : action.fd = -1
    · rw [hmarked, mark_marked]
      exact hrecorded.closeMatching_marked s.m_fds
    · rw [closeMatching_of_nodup hmarked htracks.nodup]
      split_ifs with hmem
      · refine hrecorded.mark hne fun _ => ?_
        -- it is not the first entry
        obtain ⟨rest, hfds⟩ := h.exists_fds
        have hmem : action.fd ∈ s.fds := hmem
        rw [hfds] at hmem ⊢
        exact (List.mem_cons.mp hmem).resolve_left hne
      · have hmem : action.fd ∉ s.fds := hmem
        rw [mark_of_not_mem hmem]
        exact hrecorded
  · have happly : s.applyAction action =
        { s.recordApplied action with m_fds := s.m_fds.map action.applyTo } := by
      rw [applyAction, if_neg htype]
    rw [if_neg htype, happly]
    exact hrecorded

/-- One socket in `disconnectAll`. -/
theorem PollInv.disconnect (h : PollInv s) {i : ℕ} (hphase : s.phase = .disconnecting i)
    {pfd : PollFd} (hpfd : s.m_fds[i]? = some pfd) :
    PollInv { s.closeSocket pfd.fd with phase := .disconnecting (i + 1) } := by
  have hcut : s.firstOpen = i := by rw [firstOpen, hphase]
  have hget : s.fds[i]? = some pfd.fd := by rw [fds, List.getElem?_map, hpfd, Option.map_some]
  obtain ⟨hlt, hentry⟩ := List.getElem?_eq_some_iff.mp hget
  -- The loop is at the first entry that is still open, and closes it.
  have hdrop : s.fds.drop i = pfd.fd :: s.fds.drop (i + 1) := by
    rw [← hentry, List.drop_eq_getElem_cons hlt]
  have hunmarked : -1 ∉ s.fds := h.unmarked (by simp [hphase, LoopPhase.Marks])
  have hne : pfd.fd ≠ -1 := fun heq => hunmarked (heq ▸ List.mem_of_getElem? hget)
  have hrest : pfd.fd ∉ s.fds.drop (i + 1) := by
    have hnodup := h.tracks.nodup
    rw [← List.take_append_drop i s.fds, hdrop] at hnodup
    exact (Tracks.not_mem_of_nodup hnodup hne).2
  refine ⟨h.pos, ?_, fun _ => hunmarked, fun j hj => ?_, fun action haction => ?_⟩
  · refine h.tracks.close (fun _ => ?_) h.tracks.listener h.tracks.nodup fun fd' _ => ?_
    · rw [hcut, hdrop]
      exact List.mem_cons_self
    · -- the entries that are still open
      show fd' ∈ s.fds.drop (i + 1) ↔ _
      rw [hcut, hdrop, List.mem_cons]
      constructor
      · exact fun hmem => ⟨.inr hmem, fun heq => hrest (heq ▸ hmem)⟩
      · exact fun hmem => hmem.1.resolve_left hmem.2
  · rcases hj with hj | hj
    · obtain rfl := LoopPhase.disconnecting.inj hj
      omega
    · cases hj
  · exact h.pending action haction

/-- The end of `disconnectAll`. -/
theorem PollInv.resize (h : PollInv s) {i : ℕ} (hphase : s.phase = .disconnecting i)
    (hend : s.m_fds[i]? = none) :
    PollInv { s with m_fds := s.m_fds.take 1, phase := .locking } := by
  have hcut : s.firstOpen = i := by rw [firstOpen, hphase]
  obtain ⟨rest, hfds⟩ := h.exists_fds
  have htake : (s.m_fds.take 1).map PollFd.fd = [s.m_server_fd] := by
    rw [List.map_take, ← fds, hfds]
    rfl
  have hnone (fd : ℤ) : s.sockets fd = none := by
    -- all the entries have been closed
    have hdrop : s.fds.drop i = [] := by
      rw [List.drop_eq_nil_iff, fds, List.length_map]
      exact List.getElem?_eq_none_iff.mp hend
    have hopened := h.tracks.opened fd
    rw [hcut, hdrop] at hopened
    simpa using hopened
  refine ⟨h.pos, ⟨?_, ?_, fun fd => ?_, h.tracks.agrees, h.tracks.closes⟩, fun _ => ?_,
    fun j hj => ?_, fun action haction => ?_⟩
  · show ((s.m_fds.take 1).map PollFd.fd).head? = _
    rw [htake]
    rfl
  · show (((s.m_fds.take 1).map PollFd.fd).filter _).Nodup
    rw [htake, List.filter_cons_of_pos (by simpa using h.ne_marked), List.filter_nil]
    exact List.nodup_singleton _
  · show (s.sockets fd).isSome ↔ fd ≠ -1 ∧ fd ∈ ((s.m_fds.take 1).map PollFd.fd).drop 1
    rw [htake, hnone]
    simp
  · show -1 ∉ (s.m_fds.take 1).map PollFd.fd
    rw [htake, List.mem_singleton]
    exact h.ne_marked.symm
  · rcases hj with hj | hj
    · cases hj
    · cases hj
  · exact h.pending action haction

/-- The marked entries are erased. -/
theorem PollInv.eraseMarked (h : PollInv s) (hcut : s.firstOpen = 1) {phase : LoopPhase}
    (hphase : phase = .top ∨ phase = .polling) (m_pending_actions : List ClientAction)
    (hactions : ∀ action ∈ m_pending_actions, action.fd ≠ s.m_server_fd) :
    PollInv { s.eraseMarked with m_pending_actions, phase } := by
  have hfds : (s.m_fds.filter fun pfd => pfd.fd ≠ -1).map PollFd.fd = s.fds.filter (· ≠ -1) := by
    rw [fds, List.filter_map]
    rfl
  have htracks : Tracks s.m_server_fd (s.fds.filter (· ≠ -1)) 1 s.sockets s.trace :=
    (hcut ▸ h.tracks).erase h.ne_marked
  rw [← hfds] at htracks
  refine ⟨h.pos, ?_, fun _ => ?_, fun i hi => ?_, fun action haction => ?_⟩
  · rcases hphase with rfl | rfl
    · exact htracks
    · exact htracks
  · show -1 ∉ (s.m_fds.filter fun pfd => pfd.fd ≠ -1).map PollFd.fd
    rw [hfds, List.mem_filter]
    simp
  · rcases hphase with rfl | rfl
    · rcases hi with hi | hi <;> cases hi
    · rcases hi with hi | hi <;> cases hi
  · refine hactions action ?_
    rcases hphase with rfl | rfl
    · exact haction
    · exact haction

/-- A new connection. -/
theorem PollInv.addClient (h : PollInv s) (hphase : s.phase = .accepting) {fd : ℤ}
    (hfree : s.Free fd) : PollInv { s.addClient fd with phase := .receiving 1 } := by
  have hcut : s.firstOpen = 1 := by rw [firstOpen, hphase]
  let entry : PollFd := ⟨fd, true, false⟩
  have hfds : (s.m_fds ++ [entry]).map PollFd.fd = s.fds ++ [fd] := by
    rw [List.map_append]
    rfl
  refine ⟨h.pos, ?_, fun hnot => absurd trivial hnot, fun i hi => ?_, fun action haction => ?_⟩
  · show Tracks _ ((s.m_fds ++ [entry]).map PollFd.fd) 1 _ _
    rw [hfds]
    exact (hcut ▸ h.tracks).accept hfree.1 hfree.2.1 hfree.2.2
  · rcases hi with hi | hi
    · cases hi
    · obtain rfl := LoopPhase.receiving.inj hi
      exact le_rfl
  · exact h.pending action haction

/-- One entry with something to be read. -/
theorem PollInv.receive (h : PollInv s) {i : ℕ} (hphase : s.phase = .receiving i) {pfd : PollFd}
    (hpfd : s.m_fds[i]? = some pfd) (data : Bytes) :
    PollInv { s.receive i pfd data with phase := .receiving (i + 1) } := by
  have hcut : s.firstOpen = 1 := by rw [firstOpen, hphase]
  have htracks : Tracks s.m_server_fd s.fds 1 s.sockets s.trace := hcut ▸ h.tracks
  have hpos : 1 ≤ i := h.index i (.inr hphase)
  have hget : s.fds[i]? = some pfd.fd := by rw [fds, List.getElem?_map, hpfd, Option.map_some]
  have hindex : ∀ j, LoopPhase.receiving (i + 1) = .disconnecting j ∨
      LoopPhase.receiving (i + 1) = .receiving j → 1 ≤ j := by
    rintro j (hj | hj)
    · cases hj
    · obtain rfl := LoopPhase.receiving.inj hj
      omega
  unfold Server.receive
  split
  · -- the fd numbers stay
    next conn b bs hconn hdata =>
    have hset : (s.m_fds.set i { pfd with events := false }).map PollFd.fd = s.fds := by
      obtain ⟨hlt, hentry⟩ := List.getElem?_eq_some_iff.mp hget
      rw [List.map_set, ← fds]
      show s.fds.set i pfd.fd = s.fds
      rw [← hentry, List.set_getElem_self]
    refine ⟨h.pos, ?_, fun hnot => absurd trivial hnot, hindex, h.pending⟩
    show Tracks _ ((s.m_fds.set i { pfd with events := false }).map PollFd.fd) 1 _ _
    rw [hset]
    exact htracks.record (by simp) (by simp)
  · have hset : (s.m_fds.set i { pfd with fd := -1 }).map PollFd.fd = mark pfd.fd s.fds := by
      rw [List.map_set]
      exact set_eq_mark hget htracks.nodup
    -- the entry is behind the first one
    have hmem : pfd.fd ∈ s.fds.drop 1 := by
      refine List.mem_of_getElem? (i := i - 1) ?_
      rw [List.getElem?_drop, Nat.add_sub_cancel' hpos, hget]
    have hne : pfd.fd ≠ s.m_server_fd := by
      obtain ⟨rest, hfds⟩ := h.exists_fds
      intro heq
      have hnodup := htracks.nodup
      rw [hfds] at hmem hnodup
      rw [heq] at hmem
      exact Tracks.not_mem_tail_of_nodup hnodup h.ne_marked hmem
    refine ⟨h.pos, ?_, fun hnot => absurd trivial hnot, hindex, h.pending⟩
    show Tracks _ ((s.m_fds.set i { pfd with fd := -1 }).map PollFd.fd) 1 _ _
    rw [hset]
    exact htracks.mark hne fun _ => hmem

/-- The next pending action. -/
theorem PollInv.applyAction (h : PollInv s) {action : ClientAction} {rest : List ClientAction}
    (hphase : s.phase = .actions (action :: rest)) :
    PollInv { s.applyAction action with phase := .actions rest } := by
  have hcut : s.firstOpen = 1 := by rw [firstOpen, hphase]
  have hne := h.actions action (by simp [actionList, hphase])
  obtain ⟨new, heq, -⟩ := applyAction_eq action s
  have hserver : (s.applyAction action).m_server_fd = s.m_server_fd := by rw [heq]
  refine ⟨hserver ▸ h.pos, ?_, fun hnot => absurd trivial hnot, by simp, ?_⟩
  · show Tracks (s.applyAction action).m_server_fd _ _ _ _
    rw [hserver]
    exact h.tracks_applyAction hcut hne
  · intro action' haction'
    show action'.fd ≠ (s.applyAction action).m_server_fd
    rw [hserver]
    refine h.actions action' ?_
    simp only [actionList, heq, hphase, List.mem_append, List.mem_cons] at haction' ⊢
    tauto

/-- A step of the loop keeps the invariant. -/
theorem PollInv.loopStep (h : PollInv s) (hstep : s.loopStep lockdown env = some s') :
    PollInv s' := by
  cases loopStep_cases hstep with
  | disconnectAll hphase _ =>
    -- `disconnectAll` starts behind the listening socket
    exact h.of_quiet rfl rfl (by simp [firstOpen, hphase]) rfl rfl
      (by simp [hphase, LoopPhase.Marks]) (by simp) h.pending
  | top hphase =>
    exact h.of_quiet rfl rfl (by simp [firstOpen, hphase]) rfl rfl
      (by simp [hphase, LoopPhase.Marks]) (by simp) h.pending
  | disconnect hphase hpfd => exact h.disconnect hphase hpfd
  | resize hphase hend => exact h.resize hphase hend
  | lock hphase =>
    refine h.of_quiet rfl rfl (by simp [firstOpen, hphase]) rfl rfl (fun _ => trivial) (by simp)
      fun action haction => h.actions action ?_
    simpa [actionList, hphase] using haction
  | action hphase => exact h.applyAction hphase
  | unlock hphase => exact h.eraseMarked (by rw [firstOpen, hphase]) (.inr rfl) [] (by simp)
  | pollFailed hphase =>
    exact h.of_quiet rfl rfl (by simp [firstOpen, hphase]) rfl rfl
      (by simp [hphase, LoopPhase.Marks]) (by simp) h.pending
  | pollTimeout hphase =>
    exact h.of_quiet rfl (by simp [Server.setRevents, fds, Function.comp_def])
      (by simp [firstOpen, hphase]) rfl rfl (by simp [hphase, LoopPhase.Marks]) (by simp) h.pending
  | pollReady hphase =>
    exact h.of_quiet rfl (by simp [Server.setRevents, fds, Function.comp_def])
      (by simp [firstOpen, hphase]) rfl rfl (by simp [hphase, LoopPhase.Marks]) (by simp) h.pending
  | noClient hphase =>
    -- and so does the loop over the clients
    exact h.of_quiet rfl rfl (by simp [firstOpen, hphase]) rfl rfl
      (by simp [hphase, LoopPhase.Marks]) (by simp) h.pending
  | accept hphase _ hfree => exact h.addClient hphase hfree
  | receive hphase hpfd _ => exact h.receive hphase hpfd env.data
  | skip hphase =>
    exact h.of_quiet rfl rfl (by simp [firstOpen, hphase]) rfl rfl (fun _ => trivial) (by simp)
      h.pending
  | erase hphase => exact h.eraseMarked (by rw [firstOpen, hphase]) (.inl rfl) _ h.pending

/-- An action for another socket than the listening one. -/
theorem PollInv.pushAction (h : PollInv s) {action : ClientAction}
    (hne : action.fd ≠ s.m_server_fd) (hstep : s.pushAction action = some s') : PollInv s' := by
  obtain ⟨rfl, hactions⟩ := pushAction_eq hstep
  refine h.of_quiet rfl rfl rfl rfl rfl id h.index fun action' haction' => ?_
  rcases hactions action' haction' with hold | rfl
  · exact h.actions action' hold
  · exact hne

end Step

/-! ## Runs -/

theorem pollInv_of_reachable {m_server_fd : ℤ} (hpos : 0 ≤ m_server_fd) {s : Server}
    (hs : (pollSystem m_server_fd).Reachable s) : PollInv s := by
  refine StepSystem.ReachableUnder.invariant ?_ (fun s l s' h _ hstep => ?_) hs
  · rintro s rfl
    exact .listening hpos
  · cases l with
    | loop lockdown env => exact h.loopStep hstep
    | push action =>
      simp only [pollSystem] at hstep
      split at hstep
      · cases hstep
      · next hne => exact h.pushAction hne hstep

/-- In every run, at the start of every iteration `m_fds` holds the listening socket first and then
each open client socket once, and at no time is a client fd closed a second time unless `accept` has
returned it in between. -/
theorem pollSet_of_reachable {m_server_fd : ℤ} (hpos : 0 ≤ m_server_fd) {s : Server}
    (hs : (pollSystem m_server_fd).Reachable s) :
    (s.phase = .top → s.PollSet) ∧ ClosedOnce s.trace :=
  have hinv := pollInv_of_reachable hpos hs
  ⟨hinv.pollSet, hinv.tracks.closes.closedOnce⟩

/-- A step of the loop for which nothing is there to be read. -/
def idleLoop : PollLabel := .loop .NONE ⟨.timeout, none, []⟩

/-- From the start of an iteration: so many actions are applied, a client is accepted, and the loop
comes to the start of the next iteration. -/
def acceptOn (fd : ℤ) (actions entries : ℕ) : List PollLabel :=
  List.replicate (actions + 3) idleLoop ++
    [.loop .NONE ⟨.ready (· == 3), none, []⟩, .loop .NONE ⟨.timeout, some fd, []⟩] ++
    List.replicate (entries + 1) idleLoop

/-- A client on `5` is closed twice and polled again, and the next client gets `5`. -/
def doubleCloseRun : List PollLabel :=
  acceptOn 5 0 1 ++
    [.push ⟨5, .CLOSE_CLIENT, 0⟩, .push ⟨5, .CLOSE_CLIENT, 0⟩, .push ⟨5, .ENABLE_POLLING, 0⟩,
      .push ⟨-1, .CLOSE_CLIENT, 0⟩] ++ acceptOn 5 4 1

/-- The second client on a number that was closed twice. -/
theorem pollSet_doubleCloseRun :
    ∃ s : Server, s.phase = .top ∧ s.connections = 2 ∧ s.PollSet ∧ ClosedOnce s.trace := by
  have hrun : ((pollSystem 3).runFrom (.listening 3) doubleCloseRun).any
      (fun s => decide (s.phase = .top) && decide (s.connections = 2)) = true := by
    decide +kernel
  obtain ⟨s, hs, hend⟩ := StepSystem.exists_reachable_of_any rfl hrun
  simp only [Bool.and_eq_true, decide_eq_true_eq] at hend
  obtain ⟨hset, hclosed⟩ := pollSet_of_reachable (by decide) hs
  exact ⟨s, hend.1, hend.2, hset hend.1, hclosed⟩

end Server
