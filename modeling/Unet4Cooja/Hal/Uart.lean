import Unet4Cooja.Brtos.Queue

/-!
# Lines from the UART (`uart.c`, `drivers.c`)

* `UartSys` : the queue `Serial`, the semaphore `StringEvent`, and where the task that calls `gets` is;
* `usciRxIsr`, `getsCall`, `getsRound` : the interrupt, the pend of `gets`, and a round of its loop;
* `UartAct`, `uartStep` : the interleavings;
* `noteUart` : the observer of the bytes that were sent and the strings that `gets` returned;
* `whole_of_runs` : while `Serial` has room for the bytes that arrive, `gets` returns the lines that were sent;
* `whole_fails` : when it is full, `StringEvent` counts lines that are gone.
-/

namespace Unet4Cooja
open Lib

def newline : U8 := 0x0A

/-! ## The queue, when no task waits for it -/

namespace OsQueue
variable (q : OsQueue)

/-- `OSQueuePost`. -/
def post (data : U8) : QueuePostReturn × OsQueue :=
  if q.osqEntries < q.osqSize then (.writeBufferOk, q.put data) else (.bufferUnderrun, q)

/-- `OSQueuePend` with `NO_TIMEOUT`; `none` is `EXIT_BY_NO_ENTRY_AVAILABLE`. -/
def pend : Option U8 × OsQueue :=
  if 0 < q.osqEntries then (some q.take.1, q.take.2) else (none, q)

end OsQueue

theorem osQueuePost_queue {τ : Type*} (s : QueueSys τ) (data : U8) :
    (osQueuePost s data).1 = (s.queue.post data).1 ∧ (osQueuePost s data).2.queue = (s.queue.post data).2 := by
  unfold osQueuePost OsQueue.post
  split
  · constructor
    · rfl
    · dsimp only
      split <;> rfl
  · exact ⟨rfl, rfl⟩

/-! ## The system -/

/-- Where the task is: it is not in `gets`, it waits in `OSSemPend` with whether `time_wait` is not 0, or it reads
with the local variable `i`. -/
inductive GetsPc
  | idle
  | waiting (timeWait : Bool)
  | reading (i : U8)
  deriving DecidableEq

/-- The queue, the semaphore and the task, with the array it reads into. -/
structure UartSys where
  serial : OsQueue
  stringEvent : Nat
  string : Nat → U8
  gets : GetsPc

def UartSys.postStringEvent (s : UartSys) : UartSys :=
  match s.gets with
  | .waiting _ => { s with gets := .reading 0 }
  | .idle | .reading _ => { s with stringEvent := osSemPost s.stringEvent }

/-- `USCIxRX_ISR`. -/
def usciRxIsr (s : UartSys) (receiveByte : U8) : UartSys :=
  let s :=
    if (s.serial.post receiveByte).1 = .bufferUnderrun then { s with serial := s.serial.clean }
    else { s with serial := (s.serial.post receiveByte).2 }
  if receiveByte = newline then s.postStringEvent else s

/-- `gets`, up to where it waits or reads. -/
def getsCall (s : UartSys) (timeWait : WaitTime) : UartSys :=
  if 0 < s.stringEvent then { s with stringEvent := s.stringEvent - 1, gets := .reading 0 }
  else if timeWait = .noTimeout then s
  else { s with gets := .waiting (timeWait = .ticks) }

/-- A round of the loop of `gets`, with what it returns then. -/
def getsRound (s : UartSys) (i : U8) : Option U8 × UartSys :=
  let s := { s with string := Function.update s.string i.toNat 0 }
  match s.serial.pend with
  | (none, _) => (some 0, { s with gets := .idle })
  | (some byte, serial) =>
    let s := { s with serial := serial, string := Function.update s.string i.toNat byte }
    if byte = newline then (some (i + 1), { s with gets := .idle })
    else (none, { s with gets := .reading (i + 1) })

/-- A step: a byte arrives, `gets` is called, its time is over, or it reads a byte. -/
inductive UartAct
  | receive (receiveByte : U8)
  | gets (timeWait : WaitTime)
  | timeout
  | getchar

def uartStep (s : UartSys) : UartAct → Option UartSys
  | .receive receiveByte => some (usciRxIsr s receiveByte)
  | .gets timeWait => if s.gets = .idle then some (getsCall s timeWait) else none
  | .timeout => if s.gets = .waiting true then some { s with gets := .idle } else none
  | .getchar =>
    match s.gets with
    | .reading i => some (getsRound s i).2
    | .idle | .waiting _ => none

/-- `uart_init`; the memory has any contents. -/
def uartInit (bytes string : Nat → U8) : UartSys where
  serial := { osqSize := 32, osqEntries := 0, osqIn := 0, osqOut := 0, bytes := bytes }
  stringEvent := 0
  string := string
  gets := .idle

/-! ## Lines -/

/-- The bytes that were sent, and the strings that were returned. -/
structure UartNote where
  sent : List U8
  lines : List (List U8)
  deriving DecidableEq

def UartSys.read (s : UartSys) (n : U8) : List U8 := (List.range n.toNat).map s.string

def noteUart (s : UartSys) (n : UartNote) : UartAct → UartNote
  | .receive receiveByte => { n with sent := n.sent ++ [receiveByte] }
  | .gets _ | .timeout => n
  | .getchar =>
    match s.gets with
    | .reading i =>
      match getsRound s i with
      | (some count, s) => if 0 < count then { n with lines := n.lines ++ [s.read count] } else n
      | (none, _) => n
    | .idle | .waiting _ => n

def IsLine (xs : List U8) : Prop := ∃ ys, xs = ys ++ [newline] ∧ newline ∉ ys

/-- The tokens are the lines in the queue, and what was returned are the first lines that were sent. -/
structure Whole (s : UartSys) (n : UartNote) : Prop where
  tokens : s.gets = .idle → ∃ xs, s.serial.Holds xs ∧ s.stringEvent = xs.count newline
  sent : n.lines.flatten <+: n.sent
  lines : ∀ l ∈ n.lines, IsLine l

/-- There is room for the byte that arrives. -/
def SerialFits (s : UartSys) : UartAct → Prop
  | .receive _ => s.serial.osqEntries < s.serial.osqSize
  | .gets _ | .timeout | .getchar => True

instance (s : UartSys) (a : UartAct) : Decidable (SerialFits s a) :=
  match a with
  | .receive _ => inferInstanceAs (Decidable (s.serial.osqEntries < s.serial.osqSize))
  | .gets _ | .timeout | .getchar => .isTrue trivial

/-! ## The invariant -/

/-- What holds of the array and the semaphore, by where the task is: `xs` is in the queue, and `ps` has been read
of a line. -/
def GetsAt (s : UartSys) (ps xs : List U8) : Prop :=
  match s.gets with
  | .idle => ps = [] ∧ s.stringEvent = xs.count newline
  | .waiting _ => ps = [] ∧ s.stringEvent = 0 ∧ newline ∉ xs
  | .reading i =>
    s.read i = ps ∧ newline ∉ ps ∧ s.stringEvent + 1 = xs.count newline ∧
      ∃ ys zs, xs = ys ++ newline :: zs ∧ newline ∉ ys ∧ i.toNat + ys.length < 32

structure UartInv (s : UartSys) (n : UartNote) : Prop where
  size : s.serial.osqSize = 32
  state : ∃ ps xs, s.serial.Holds xs ∧ n.sent = n.lines.flatten ++ (ps ++ xs) ∧ GetsAt s ps xs
  lines : ∀ l ∈ n.lines, IsLine l

section
variable {s s' : UartSys} {n : UartNote} {b : U8} {ps xs : List U8} {i : U8}

theorem uartInv_uartInit (bytes string : Nat → U8) : UartInv (uartInit bytes string) ⟨[], []⟩ where
  size := rfl
  state := ⟨[], [], ⟨Ring.holds_nil _ (Nat.zero_le _), rfl⟩, rfl, rfl, rfl⟩
  lines _ h := absurd h List.not_mem_nil

theorem UartInv.whole (h : UartInv s n) : Whole s n where
  tokens hidle := by
    obtain ⟨ps, xs, hxs, -, hat⟩ := h.state
    unfold GetsAt at hat
    rw [hidle] at hat
    exact ⟨xs, hxs, hat.2⟩
  sent := by
    obtain ⟨ps, xs, -, hsent, -⟩ := h.state
    exact ⟨ps ++ xs, hsent.symm⟩
  lines := h.lines

theorem usciRxIsr_of_fits (hfits : s.serial.osqEntries < s.serial.osqSize) :
    usciRxIsr s b =
      if b = newline then { s with serial := s.serial.put b }.postStringEvent
      else { s with serial := s.serial.put b } := by
  unfold usciRxIsr OsQueue.post
  simp [hfits]

theorem exists_line (h : 0 < xs.count newline) : ∃ ys zs, xs = ys ++ newline :: zs ∧ newline ∉ ys := by
  obtain ⟨ys, zs, hxs, hys⟩ := List.eq_append_cons_of_mem (List.count_pos_iff.mp h)
  exact ⟨ys, zs, hxs, hys⟩

theorem GetsAt.receive_other (h : GetsAt s ps xs) (hb : b ≠ newline) (q : OsQueue) :
    GetsAt { s with serial := q } ps (xs ++ [b]) := by
  have hcount : (xs ++ [b]).count newline = xs.count newline := by
    rw [List.count_append, List.count_singleton]
    simp [hb]
  unfold GetsAt at h ⊢
  rw [hcount]
  dsimp only
  cases hg : s.gets with
  | idle =>
    simp only [hg] at h
    exact h
  | waiting timeWait =>
    simp only [hg] at h
    exact ⟨h.1, h.2.1, by simp [h.2.2, hb.symm]⟩
  | reading i =>
    simp only [hg] at h
    obtain ⟨hread, hps, htokens, ys, zs, rfl, hys⟩ := h
    exact ⟨hread, hps, htokens, ys, zs ++ [b], by simp, hys⟩

theorem GetsAt.receive_newline (h : GetsAt s ps xs) (hlen : xs.length < 32) (q : OsQueue) :
    GetsAt { s with serial := q }.postStringEvent ps (xs ++ [newline]) := by
  have hcount : (xs ++ [newline]).count newline = xs.count newline + 1 := by
    rw [List.count_append, List.count_singleton_self]
  have hle : xs.count newline ≤ xs.length := List.count_le_length
  unfold UartSys.postStringEvent GetsAt at *
  dsimp only
  cases hg : s.gets with
  | idle =>
    simp only [hg] at h ⊢
    have hpost : osSemPost s.stringEvent = s.stringEvent + 1 := if_pos (by omega)
    exact ⟨h.1, by omega⟩
  | waiting timeWait =>
    simp only [hg] at h ⊢
    obtain ⟨rfl, htokens, hxs⟩ := h
    have hnone : xs.count newline = 0 := List.count_eq_zero.mpr hxs
    exact ⟨rfl, List.not_mem_nil, by omega, xs, [], rfl, hxs, by simpa using hlen⟩
  | reading i =>
    simp only [hg] at h ⊢
    obtain ⟨hread, hps, htokens, ys, zs, rfl, hys⟩ := h
    have hpost : osSemPost s.stringEvent = s.stringEvent + 1 := if_pos (by omega)
    exact ⟨hread, hps, by omega, ys, zs ++ [newline], by simp, hys⟩

theorem UartInv.receive (h : UartInv s n) (hfits : s.serial.osqEntries < s.serial.osqSize) (b : U8) :
    UartInv (usciRxIsr s b) (noteUart s n (.receive b)) := by
  obtain ⟨ps, xs, hxs, hsent, hat⟩ := h.state
  have hlen : xs.length < 32 := by
    have hlt : s.serial.osqEntries.toNat < s.serial.osqSize.toNat := BitVec.lt_def.mp hfits
    rwa [h.size, hxs.2] at hlt
  have hsent' : n.sent ++ [b] = n.lines.flatten ++ (ps ++ (xs ++ [b])) := by simp [hsent]
  rw [usciRxIsr_of_fits hfits]
  split
  · rename_i hb
    subst hb
    refine ⟨?_, ⟨ps, xs ++ [newline], ?_, hsent', hat.receive_newline hlen _⟩, h.lines⟩
    · unfold UartSys.postStringEvent
      dsimp only
      split <;> exact h.size
    · unfold UartSys.postStringEvent
      dsimp only
      split <;> exact hxs.put hfits newline
  · rename_i hb
    exact ⟨h.size, ⟨ps, xs ++ [b], hxs.put hfits b, hsent', hat.receive_other hb _⟩, h.lines⟩

theorem UartInv.call (h : UartInv s n) (hidle : s.gets = .idle) (timeWait : WaitTime) :
    UartInv (getsCall s timeWait) n := by
  obtain ⟨ps, xs, hxs, hsent, hat⟩ := h.state
  unfold GetsAt at hat
  rw [hidle] at hat
  obtain ⟨rfl, htokens⟩ := hat
  have hlen : xs.length ≤ 32 := by
    have hle := hxs.le
    rwa [h.size, hxs.2] at hle
  unfold getsCall
  split
  · rename_i hpos
    obtain ⟨ys, zs, rfl, hys⟩ := exists_line (htokens ▸ hpos)
    refine ⟨h.size, ⟨[], _, hxs, hsent, rfl, List.not_mem_nil, ?_, ys, zs, rfl, hys, ?_⟩, h.lines⟩
    · show s.stringEvent - 1 + 1 = _
      omega
    · rw [List.length_append, List.length_cons] at hlen
      show 0 + ys.length < 32
      omega
  · rename_i hzero
    split
    · exact h
    · have hnone : newline ∉ xs := List.count_eq_zero.mp (by omega)
      have hempty : s.stringEvent = 0 := Nat.eq_zero_of_not_pos hzero
      exact ⟨h.size, ⟨[], xs, hxs, hsent, rfl, hempty, hnone⟩, h.lines⟩

theorem UartInv.timeout (h : UartInv s n) (hwait : s.gets = .waiting true) :
    UartInv { s with gets := .idle } n := by
  obtain ⟨ps, xs, hxs, hsent, hat⟩ := h.state
  unfold GetsAt at hat
  rw [hwait] at hat
  obtain ⟨rfl, htokens, hnone⟩ := hat
  exact ⟨h.size, ⟨[], xs, hxs, hsent, rfl, htokens.trans (List.count_eq_zero.mpr hnone).symm⟩, h.lines⟩

theorem read_succ (hsmall : i.toNat < 255) (hstring : s'.string =
    Function.update (Function.update s.string i.toNat 0) i.toNat b) : s'.read (i + 1) = s.read i ++ [b] := by
  have hsucc : (i + 1).toNat = i.toNat + 1 := by bv_omega
  unfold UartSys.read
  rw [hsucc, hstring, Function.update_idem, List.range_succ, List.map_append, List.map_singleton,
    Function.update_self]
  congr 1
  apply List.map_congr_left
  intro k hk
  exact Function.update_of_ne (Nat.ne_of_lt (List.mem_range.mp hk)) _ _

theorem getsRound_of_pos (hpos : 0 < s.serial.osqEntries) : getsRound s i =
    let s' := { s with
      serial := s.serial.take.2
      string := Function.update (Function.update s.string i.toNat 0) i.toNat s.serial.take.1 }
    if s.serial.take.1 = newline then (some (i + 1), { s' with gets := .idle })
    else (none, { s' with gets := .reading (i + 1) }) := by
  unfold getsRound OsQueue.pend
  dsimp only
  rw [if_pos hpos]

theorem UartInv.entries_pos (h : UartInv s n) (hread : s.gets = .reading i) : 0 < s.serial.osqEntries := by
  obtain ⟨ps, xs, hxs, -, hat⟩ := h.state
  unfold GetsAt at hat
  rw [hread] at hat
  obtain ⟨-, -, -, ys, zs, hline, -, -⟩ := hat
  have hentries : s.serial.osqEntries.toNat = xs.length := hxs.2
  rw [hline, List.length_append, List.length_cons] at hentries
  rw [BitVec.lt_def, hentries]
  exact Nat.zero_lt_of_lt (Nat.lt_add_of_pos_right (Nat.succ_pos _))

theorem UartInv.getchar (h : UartInv s n) (hread : s.gets = .reading i) :
    UartInv (getsRound s i).2 (noteUart s n .getchar) := by
  obtain ⟨ps, xs, hxs, hsent, hat⟩ := h.state
  unfold GetsAt at hat
  rw [hread] at hat
  obtain ⟨rfl, hps, htokens, ys, zs, hline, hys, hsmall⟩ := hat
  have hsucc : (i + 1).toNat = i.toNat + 1 := by bv_omega
  have hpos := h.entries_pos hread
  obtain ⟨vs, hvs, hrest⟩ := hxs.take hpos
  unfold noteUart
  simp only [hread, getsRound_of_pos hpos]
  by_cases hb : s.serial.take.1 = newline
  · -- the line is complete
    have hys : ys = [] := by
      cases ys with
      | nil => rfl
      | cons y ys =>
        rw [hvs, List.cons_append] at hline
        rw [← (List.cons.inj hline).1, hb] at hys
        exact absurd List.mem_cons_self hys
    rw [hys, List.nil_append, hvs] at hline
    obtain ⟨-, rfl⟩ := List.cons.inj hline
    simp only [if_pos hb]
    have hcount : 0 < i + 1 := by bv_omega
    rw [if_pos hcount, read_succ (s := s) (by omega) rfl, hb]
    refine ⟨h.size, ⟨[], vs, hrest, ?_, rfl, ?_⟩, fun l hl => ?_⟩
    · simp [hsent, hvs, hb]
    · rw [hvs, hb, List.count_cons_self] at htokens
      exact Nat.succ.inj htokens
    · rcases List.mem_append.mp hl with hl | hl
      · exact h.lines l hl
      · exact ⟨_, List.mem_singleton.mp hl, hps⟩
  · cases ys with
    | nil =>
      rw [hvs, List.nil_append] at hline
      exact absurd (List.cons.inj hline).1 hb
    | cons y ys =>
      rw [hvs, List.cons_append] at hline
      obtain ⟨rfl, rfl⟩ := List.cons.inj hline
      simp only [if_neg hb]
      rw [List.length_cons] at hsmall
      refine ⟨h.size, ⟨s.read i ++ [s.serial.take.1], _, hrest, ?_, read_succ (by omega) rfl, ?_, ?_, ys, zs, rfl,
        fun hm => hys (List.mem_cons_of_mem _ hm), by omega⟩, h.lines⟩
      · simp [hsent, hvs]
      · rw [List.mem_append, List.mem_singleton, not_or]
        exact ⟨hps, fun e => hb e.symm⟩
      · rw [hvs, List.count_cons_of_ne hb] at htokens
        exact htokens

theorem UartInv.step {a : UartAct} (h : UartInv s n) (hok : SerialFits s a) (hs : uartStep s a = some s') :
    UartInv s' (noteUart s n a) := by
  cases a with
  | receive b =>
    cases hs
    exact h.receive hok b
  | gets timeWait =>
    simp only [uartStep] at hs
    split at hs <;> cases hs
    rename_i hidle
    exact h.call hidle timeWait
  | timeout =>
    simp only [uartStep] at hs
    split at hs <;> cases hs
    rename_i hwait
    exact h.timeout hwait
  | getchar =>
    simp only [uartStep] at hs
    split at hs
    · rename_i i hread
      cases hs
      exact h.getchar hread
    · cases hs
    · cases hs

/-- In every run in which `Serial` has room for the bytes that arrive, lines arrive whole. -/
theorem whole_of_runs (bytes string : Nat → U8) {as : List UartAct}
    (r : Runs uartStep SerialFits (uartInit bytes string) as s) :
    Whole s (observe uartStep noteUart (uartInit bytes string) ⟨[], []⟩ as) :=
  (r.observed (uartInv_uartInit bytes string) fun _ _ _ _ h hok hs => h.step hok hs).whole

end

/-- A task waits for a line while two arrive. -/
def linesArrive : List UartAct :=
  [.gets .zero, .receive 65, .receive newline, .receive 66, .getchar, .receive newline, .getchar]

theorem whole_of_runs_linesArrive :
    ∃ s, Runs uartStep SerialFits (uartInit (fun _ => 0) fun _ => 0) linesArrive s ∧
      s.stringEvent = 1 ∧ Whole s ⟨[65, newline, 66, newline], [[65, newline]]⟩ := by
  have hrun : (exec (guarded uartStep SerialFits) (uartInit (fun _ => 0) fun _ => 0) linesArrive).map
      (fun s => s.stringEvent) = some 1 := by decide +kernel
  have hnote : observe uartStep noteUart (uartInit (fun _ => 0) fun _ => 0) ⟨[], []⟩ linesArrive =
      ⟨[65, newline, 66, newline], [[65, newline]]⟩ := by decide +kernel
  obtain ⟨s, hs, he⟩ := Option.map_eq_some_iff.mp hrun
  have r := Runs.of_exec_guarded hs
  exact ⟨s, r, he, hnote ▸ whole_of_runs _ _ r⟩

/-- A line fills the queue, and a byte more arrives. -/
def lineOverflows : List UartAct := List.replicate 31 (.receive 65) ++ [.receive newline, .receive 66]

/-- The queue is empty, and the token of the line is still there. -/
theorem whole_fails : ¬ ∀ as s, Runs uartStep Free (uartInit (fun _ => 0) fun _ => 0) as s →
    Whole s (observe uartStep noteUart (uartInit (fun _ => 0) fun _ => 0) ⟨[], []⟩ as) := by
  intro hall
  have hrun : (exec uartStep (uartInit (fun _ => 0) fun _ => 0) lineOverflows).map
      (fun s => (s.gets, s.serial.osqEntries, s.stringEvent)) = some (.idle, 0, 1) := by decide +kernel
  obtain ⟨s, hs, he⟩ := Option.map_eq_some_iff.mp hrun
  obtain ⟨hidle, he⟩ := Prod.mk.inj he
  obtain ⟨hentries, htokens⟩ := Prod.mk.inj he
  obtain ⟨xs, hxs, hcount⟩ := (hall lineOverflows s (Runs.of_exec hs)).tokens hidle
  have hlen : s.serial.osqEntries.toNat = xs.length := hxs.2
  rw [hentries] at hlen
  have hnil : xs = [] := List.eq_nil_of_length_eq_zero hlen.symm
  rw [hnil, htokens] at hcount
  exact absurd hcount (by decide)

end Unet4Cooja
