import Unet4Cooja.Hal.Uart

/-!
# Benchmark commands (`benchmark.js`, `benchmark.c`)

* `bmcCommand` : the bytes of a `BMC_SET` command;
* `benchmarkParseControl`, `noteBenchmark` : what is done with the strings `gets` returns;
* `UartInv.exists_drained` : the task can always read what has arrived;
* `UartInv.lines_length` : then a string has been returned for each newline;
* `commandStored_iff` : the command is received as it was meant if and only if no field is a newline;
* `commandStored_fails` : with eleven motes it is not.
-/

namespace Unet4Cooja
open Lib

/-! ## Encoding -/

def bmcStop : Nat := 1 <<< 1
def bmcReset : Nat := 1 <<< 3
def bmcSet : Nat := 1 <<< 6

def bcmEnd : Nat := 0x0a

/-- `BMC_COMMAND` with `BMC_STOP` and `BMC_SET`, of the first command or of those with `BMC_RESET` before a run;
`&` takes its operands modulo 2^32. -/
def bmcCommand (reset : Bool) (motes packets interval : Nat) : List U8 :=
  [if reset then 0xFF &&& bmcStop ||| bmcSet ||| bmcReset else 0xFF &&& bmcStop ||| bmcSet,
    (0x100000000 + motes - 1) &&& 0xFF, packets &&& 0x7F, (interval >>> 7) &&& 0x7F, interval &&& 0x7F,
    bcmEnd].map (BitVec.ofNat 8)

/-! ## Decoding -/

/-- The variables of the benchmark, with `UNET_NodeStat_Ctrl`. -/
structure BenchmarkVars where
  bmCtrl : U8
  bmEnComm : Bool
  unetNodeStatCtrl : Bool
  bmNumOfNodes : U8
  bmNumOfPackets : U8
  bmInterval : U16
  deriving DecidableEq

/-- `benchmark_parse_control`, without the statistics and what is printed. -/
def benchmarkParseControl (data : Nat → U8) (b : BenchmarkVars) : BenchmarkVars :=
  let b := { b with bmCtrl := data 0 }
  let b := if b.bmCtrl.getLsbD 0 then { b with bmEnComm := true } else b
  let b := if b.bmCtrl.getLsbD 1 then { b with bmEnComm := false } else b
  let b := { b with unetNodeStatCtrl := b.bmCtrl.getLsbD 2 }
  if b.bmCtrl.getLsbD 6 then
    { b with
      bmNumOfNodes := data 1
      bmNumOfPackets := data 2
      bmInterval := ((data 3).setWidth 16 <<< 7) + (data 4).setWidth 16 }
  else b

/-- What the observer of the UART notes, with the variables after the strings that were returned. -/
structure BenchmarkNote extends UartNote where
  vars : BenchmarkVars
  deriving DecidableEq

/-- A string that `gets` returns is handed to `benchmark_parse_control`. -/
def noteBenchmark (s : UartSys) (n : BenchmarkNote) (a : UartAct) : BenchmarkNote where
  toUartNote := noteUart s n.toUartNote a
  vars :=
    match a, s.gets with
    | .getchar, .reading i =>
      match getsRound s i with
      | (some count, s) => if 0 < count then benchmarkParseControl s.string n.vars else n.vars
      | (none, _) => n.vars
    | _, _ => n.vars

/-- The command has been handed over as one, and its values are stored. -/
structure CommandStored (motes packets interval : Nat) (n : BenchmarkNote) : Prop where
  once : n.lines.length = 1
  nodes : n.vars.bmNumOfNodes.toNat = motes - 1
  packets : n.vars.bmNumOfPackets.toNat = packets % 128
  interval : n.vars.bmInterval.toNat = interval

/-- The task has read what it can read. -/
def Drained (s : UartSys) : Prop := (∀ i, s.gets ≠ .reading i) ∧ s.stringEvent = 0

/-! ## Short transmissions -/

section
variable {s s' : UartSys} {n : UartNote} {m : BenchmarkNote} {b : U8} {ps xs : List U8} {i : U8} {a : UartAct}

theorem noteUart_sent (s : UartSys) (n : UartNote) (a : UartAct) : n.sent <+: (noteUart s n a).sent := by
  cases a with
  | receive b => exact List.prefix_append _ _
  | gets _ => exact List.prefix_refl _
  | timeout => exact List.prefix_refl _
  | getchar =>
    unfold noteUart
    dsimp only
    split
    · split
      · split <;> exact List.prefix_refl _
      · exact List.prefix_refl _
    · exact List.prefix_refl _
    · exact List.prefix_refl _

theorem UartInv.fits (h : UartInv s n) (hlen : (noteUart s n a).sent.length ≤ 32) : SerialFits s a := by
  cases a with
  | receive b =>
    obtain ⟨ps, xs, hxs, hsent, -⟩ := h.state
    have hlen : (n.sent ++ [b]).length ≤ 32 := hlen
    rw [List.length_append, List.length_singleton, hsent, List.length_append, List.length_append] at hlen
    have hentries : s.serial.osqEntries.toNat = xs.length := hxs.2
    show s.serial.osqEntries < s.serial.osqSize
    rw [h.size, BitVec.lt_def, hentries]
    show xs.length < 32
    omega
  | gets _ => trivial
  | timeout => trivial
  | getchar => trivial

theorem IsLine.count (h : IsLine xs) : xs.count newline = 1 := by
  obtain ⟨ys, rfl, hys⟩ := h
  rw [List.count_append, List.count_singleton_self, List.count_eq_zero.mpr hys]

theorem count_flatten {ls : List (List U8)} (h : ∀ l ∈ ls, IsLine l) : ls.flatten.count newline = ls.length := by
  induction ls with
  | nil => rfl
  | cons l ls ih =>
    rw [List.flatten_cons, List.count_append, (h l List.mem_cons_self).count,
      ih fun x hx => h x (List.mem_cons_of_mem l hx), List.length_cons, Nat.add_comm]

theorem UartInv.drained (h : UartInv s n) (hd : Drained s) :
    ∃ xs, n.sent = n.lines.flatten ++ xs ∧ newline ∉ xs := by
  obtain ⟨ps, xs, -, hsent, hat⟩ := h.state
  refine ⟨xs, ?_, ?_⟩
  · unfold GetsAt at hat
    split at hat
    · rw [hsent, hat.1, List.nil_append]
    · rw [hsent, hat.1, List.nil_append]
    · rename_i i hg
      exact absurd hg (hd.1 i)
  · unfold GetsAt at hat
    split at hat
    · exact List.count_eq_zero.mp (hat.2.symm.trans hd.2)
    · exact hat.2.2
    · rename_i i hg
      exact absurd hg (hd.1 i)

theorem UartInv.lines_length (h : UartInv s n) (hd : Drained s) : n.lines.length = n.sent.count newline := by
  obtain ⟨xs, hsent, hxs⟩ := h.drained hd
  rw [hsent, List.count_append, List.count_eq_zero.mpr hxs, Nat.add_zero, count_flatten h.lines]

theorem UartInv.exists_drained (h : UartInv s n) :
    ∃ as t, Runs uartStep Free s as t ∧ Drained t ∧ ∀ b, UartAct.receive b ∉ as := by
  -- a call takes a token, a round takes a byte
  induction hm : 2 * s.serial.osqEntries.toNat + (if s.gets = .idle then 1 else 0) using Nat.strong_induction_on
    generalizing s n with
  | h m ih =>
    have hone : ∀ {a t}, uartStep s a = some t → UartInv t (noteUart s n a) → (∀ b, UartAct.receive b ≠ a) →
        2 * t.serial.osqEntries.toNat + (if t.gets = .idle then 1 else 0) < m →
        ∃ as t, Runs uartStep Free s as t ∧ Drained t ∧ ∀ b, UartAct.receive b ∉ as := by
      intro a t hs ht ha hlt
      obtain ⟨as, u, r, hd, has⟩ := ih _ hlt ht rfl
      refine ⟨[a] ++ as, u, (Runs.snoc .nil trivial hs).trans r, hd, fun b hb => ?_⟩
      rcases List.mem_cons.mp hb with hb | hb
      · exact ha b hb
      · exact has b hb
    cases hg : s.gets with
    | idle =>
      by_cases htokens : s.stringEvent = 0
      · exact ⟨[], s, .nil, ⟨fun i hi => (nomatch hg.symm.trans hi), htokens⟩, fun b => List.not_mem_nil⟩
      · have hcall : getsCall s .zero = { s with stringEvent := s.stringEvent - 1, gets := .reading 0 } :=
          if_pos (Nat.pos_of_ne_zero htokens)
        refine hone (a := .gets .zero) (if_pos hg) (h.call hg .zero) (fun b hb => nomatch hb) ?_
        rw [hcall, ← hm, hg]
        simp
    | waiting w =>
      obtain ⟨ps, xs, -, -, hat⟩ := h.state
      unfold GetsAt at hat
      rw [hg] at hat
      exact ⟨[], s, .nil, ⟨fun i hi => (nomatch hg.symm.trans hi), hat.2.1⟩, fun b => List.not_mem_nil⟩
    | reading i =>
      have hs : uartStep s .getchar = some (getsRound s i).2 := by
        unfold uartStep
        rw [hg]
      refine hone hs (h.getchar hg) (fun b hb => nomatch hb) ?_
      have hpos := h.entries_pos hg
      have htake : s.serial.take.2.osqEntries.toNat + 1 = s.serial.osqEntries.toNat := by
        show (s.serial.osqEntries - 1).toNat + 1 = _
        bv_omega
      rw [← hm, hg, getsRound_of_pos hpos]
      dsimp only
      split
      · dsimp only
        simp only [reduceCtorEq, ↓reduceIte]
        omega
      · dsimp only
        simp only [reduceCtorEq, ↓reduceIte]
        omega

/-! ## One command -/

theorem noteBenchmark_cases (s : UartSys) (m : BenchmarkNote) (a : UartAct) :
    ((noteBenchmark s m a).lines = m.lines ∧ (noteBenchmark s m a).vars = m.vars) ∨
      ∃ (data : Nat → U8) (count : Nat), (noteBenchmark s m a).lines = m.lines ++ [(List.range count).map data] ∧
        (noteBenchmark s m a).vars = benchmarkParseControl data m.vars := by
  cases a with
  | receive b => exact Or.inl ⟨rfl, rfl⟩
  | gets _ => exact Or.inl ⟨rfl, rfl⟩
  | timeout => exact Or.inl ⟨rfl, rfl⟩
  | getchar =>
    unfold noteBenchmark noteUart
    cases hg : s.gets with
    | idle => exact Or.inl ⟨rfl, rfl⟩
    | waiting _ => exact Or.inl ⟨rfl, rfl⟩
    | reading i =>
      rcases hr : getsRound s i with ⟨_ | count, t⟩
      · simp [hr]
      · by_cases hpos : 0 < count
        · simp only [hr, if_pos hpos]
          exact Or.inr ⟨t.string, count.toNat, rfl, rfl⟩
        · left
          simp only [hr, if_neg hpos, and_self]

/-- The invariant of the UART, with what the first string has done to the variables. -/
structure BenchmarkInv (vars : BenchmarkVars) (s : UartSys) (m : BenchmarkNote) : Prop where
  uart : UartInv s m.toUartNote
  before : m.lines = [] → m.vars = vars
  once : ∀ l, m.lines = [l] →
    ∃ data : Nat → U8, (∀ k (h : k < l.length), data k = l[k]) ∧ m.vars = benchmarkParseControl data vars

theorem BenchmarkInv.step {vars : BenchmarkVars} (h : BenchmarkInv vars s m) (hok : SerialFits s a)
    (hs : uartStep s a = some s') : BenchmarkInv vars s' (noteBenchmark s m a) := by
  have huart : UartInv s' (noteBenchmark s m a).toUartNote := h.uart.step hok hs
  rcases noteBenchmark_cases s m a with ⟨hlines, hvars⟩ | ⟨data, count, hlines, hvars⟩
  · exact ⟨huart, by rw [hlines, hvars]; exact h.before, by rw [hlines, hvars]; exact h.once⟩
  · refine ⟨huart, fun hnil => ?_, fun l hl => ?_⟩
    · rw [hlines] at hnil
      exact absurd hnil (List.append_ne_nil_of_right_ne_nil _ (List.cons_ne_nil _ _))
    · rw [hlines] at hl
      obtain ⟨hnil, hl⟩ := List.append_eq_singleton_iff.mp hl |>.resolve_right fun e => nomatch e.2
      obtain rfl := (List.cons.inj hl).1
      refine ⟨data, fun k hk => ?_, by rw [hvars, h.before hnil]⟩
      simp

theorem benchmarkInv_of_runs {vars : BenchmarkVars} {bytes string : Nat → U8} {as : List UartAct}
    (r : Runs uartStep Free (uartInit bytes string) as s) (hlen : (observe uartStep noteBenchmark
      (uartInit bytes string) ⟨⟨[], []⟩, vars⟩ as).sent.length ≤ 32) :
    BenchmarkInv vars s (observe uartStep noteBenchmark (uartInit bytes string) ⟨⟨[], []⟩, vars⟩ as) := by
  induction r with
  | nil =>
    refine ⟨uartInv_uartInit bytes string, fun _ => rfl, fun l hl => ?_⟩
    exact absurd hl.symm (List.cons_ne_nil _ _)
  | snoc r _ hs ih =>
    rw [observe_snoc (exec_of_runs r) hs] at hlen ⊢
    have hbefore := (noteUart_sent _ _ _).length_le.trans hlen
    have h := ih hbefore
    exact h.step (h.uart.fits hlen) hs

/-! ## The command -/

variable {reset : Bool} {motes packets interval : Nat}

theorem bmcCommand_eq (reset : Bool) (motes packets interval : Nat) :
    bmcCommand reset motes packets interval =
      [if reset then 0x4A else 0x42, BitVec.ofNat 8 ((0x100000000 + motes - 1) % 256), BitVec.ofNat 8 (packets % 128),
        BitVec.ofNat 8 (interval / 128 % 128), BitVec.ofNat 8 (interval % 128), newline] := by
  have hbyte (n : Nat) : n &&& 0xFF = n % 256 := Nat.and_two_pow_sub_one_eq_mod n 8
  have hfield (n : Nat) : n &&& 0x7F = n % 128 := Nat.and_two_pow_sub_one_eq_mod n 7
  have hshift : interval >>> 7 = interval / 128 := Nat.shiftRight_eq_div_pow interval 7
  unfold bmcCommand
  rw [hbyte, hfield, hfield, hfield, hshift]
  cases reset <;> rfl

theorem ofNat_eq_newline {k : Nat} (h : k < 256) : BitVec.ofNat 8 k = newline ↔ k = 10 := by
  constructor
  · intro e
    have ht := congrArg BitVec.toNat e
    rwa [BitVec.toNat_ofNat, Nat.mod_eq_of_lt h] at ht
  · rintro rfl
    rfl

theorem count_eq_one {c p q u v : U8} (hc : c ≠ newline) :
    [c, p, q, u, v, newline].count newline = 1 ↔ p ≠ newline ∧ q ≠ newline ∧ u ≠ newline ∧ v ≠ newline := by
  have hbefore : [c, p, q, u, v, newline].count newline = [p, q, u, v].count newline + 1 := by
    show ([c] ++ [p, q, u, v] ++ [newline]).count newline = _
    rw [List.count_append, List.count_append, List.count_singleton_self]
    simp [hc]
  rw [hbefore, Nat.add_eq_right, List.count_eq_zero]
  simp [eq_comm]

theorem count_bmcCommand (reset : Bool) (hone : 1 ≤ motes) (hmotes : motes ≤ 256) (hinterval : interval < 2 ^ 14) :
    (bmcCommand reset motes packets interval).count newline = 1 ↔
      motes - 1 ≠ 10 ∧ packets % 128 ≠ 10 ∧ interval / 128 ≠ 10 ∧ interval % 128 ≠ 10 := by
  have hc : (if reset then 0x4A else 0x42 : U8) ≠ newline := by cases reset <;> decide
  have hmod : (0x100000000 + motes - 1) % 256 = motes - 1 := by omega
  have hdiv : interval / 128 % 128 = interval / 128 := Nat.mod_eq_of_lt (by omega)
  rw [bmcCommand_eq, count_eq_one hc, hmod, hdiv, ne_eq, ne_eq, ne_eq, ne_eq, ofNat_eq_newline (by omega),
    ofNat_eq_newline (by omega), ofNat_eq_newline (by omega), ofNat_eq_newline (by omega)]

theorem parse_of_set (vars : BenchmarkVars) {data : Nat → U8} (h : (data 0).getLsbD 6 = true) :
    (benchmarkParseControl data vars).bmNumOfNodes = data 1 ∧
      (benchmarkParseControl data vars).bmNumOfPackets = data 2 ∧
      (benchmarkParseControl data vars).bmInterval = ((data 3).setWidth 16 <<< 7) + (data 4).setWidth 16 := by
  unfold benchmarkParseControl
  cases h0 : (data 0).getLsbD 0 <;> cases h1 : (data 0).getLsbD 1 <;>
    simp only [h, h0, h1, Bool.false_eq_true, ↓reduceIte, and_self]

theorem parse_bmcCommand (vars : BenchmarkVars) (hone : 1 ≤ motes) (hmotes : motes ≤ 256)
    (hinterval : interval < 2 ^ 14) {data : Nat → U8} (hdata : ∀ k (h : k < (bmcCommand reset motes packets interval).length),
      data k = (bmcCommand reset motes packets interval)[k]) :
    (benchmarkParseControl data vars).bmNumOfNodes.toNat = motes - 1 ∧
      (benchmarkParseControl data vars).bmNumOfPackets.toNat = packets % 128 ∧
      (benchmarkParseControl data vars).bmInterval.toNat = interval := by
  simp only [bmcCommand_eq] at hdata
  have h0 : data 0 = if reset then 0x4A else 0x42 := hdata 0 (by simp)
  have h1 : data 1 = BitVec.ofNat 8 ((0x100000000 + motes - 1) % 256) := hdata 1 (by simp)
  have h2 : data 2 = BitVec.ofNat 8 (packets % 128) := hdata 2 (by simp)
  have h3 : data 3 = BitVec.ofNat 8 (interval / 128 % 128) := hdata 3 (by simp)
  have h4 : data 4 = BitVec.ofNat 8 (interval % 128) := hdata 4 (by simp)
  have hset : (data 0).getLsbD 6 = true := by
    rw [h0]
    cases reset <;> decide
  obtain ⟨hnodes, hpackets, hval⟩ := parse_of_set vars hset
  rw [hnodes, hpackets, hval, h1, h2, h3, h4]
  refine ⟨?_, ?_, ?_⟩
  · rw [BitVec.toNat_ofNat]
    omega
  · rw [BitVec.toNat_ofNat]
    omega
  · rw [BitVec.toNat_add, BitVec.toNat_shiftLeft, BitVec.toNat_setWidth, BitVec.toNat_setWidth, BitVec.toNat_ofNat,
      BitVec.toNat_ofNat, Nat.shiftLeft_eq]
    omega

/-- The command is received as it was meant if and only if none of its fields is a newline. -/
theorem commandStored_iff (vars : BenchmarkVars) (bytes string : Nat → U8) (reset : Bool)
    (motes packets interval : Nat) (hone : 1 ≤ motes) (hmotes : motes ≤ 256) (hinterval : interval < 2 ^ 14)
    {as : List UartAct} {s : UartSys} (r : Runs uartStep Free (uartInit bytes string) as s)
    (hsent : (observe uartStep noteBenchmark (uartInit bytes string) ⟨⟨[], []⟩, vars⟩ as).sent =
      bmcCommand reset motes packets interval) (hd : Drained s) :
    CommandStored motes packets interval
        (observe uartStep noteBenchmark (uartInit bytes string) ⟨⟨[], []⟩, vars⟩ as) ↔
      motes - 1 ≠ 10 ∧ packets % 128 ≠ 10 ∧ interval / 128 ≠ 10 ∧ interval % 128 ≠ 10 := by
  have hlen : (bmcCommand reset motes packets interval).length = 6 := rfl
  have h := benchmarkInv_of_runs r (by rw [hsent, hlen]; decide)
  rw [← count_bmcCommand reset hone hmotes hinterval, ← hsent, ← h.uart.lines_length hd]
  constructor
  · exact fun hc => hc.once
  · intro hlines
    obtain ⟨l, hl⟩ := List.length_eq_one_iff.mp hlines
    obtain ⟨xs, hxs, hnone⟩ := h.uart.drained hd
    have hall : l = bmcCommand reset motes packets interval := by
      rw [hsent, hl, List.flatten_singleton] at hxs
      rcases List.eq_nil_or_concat xs with rfl | ⟨ws, w, rfl⟩
      · rw [hxs, List.append_nil]
      · -- the last byte is the terminator
        rw [List.concat_eq_append] at hxs hnone
        have hw : w = newline := by
          have hlast := congrArg List.getLast? hxs
          rw [bmcCommand_eq] at hlast
          simpa [eq_comm] using hlast
        exact absurd hw (fun e => hnone (by simp [e]))
    obtain ⟨data, hdata, hvars⟩ := h.once l hl
    subst hall
    obtain ⟨hnodes, hpackets, hval⟩ := parse_bmcCommand vars hone hmotes hinterval hdata
    rw [← hvars] at hnodes hpackets hval
    exact ⟨hlines, hnodes, hpackets, hval⟩

end

def clearedBenchmark : BenchmarkVars := ⟨0, false, false, 0, 0, 0⟩

/-- The command for `motes` motes arrives, and strings of these lengths are read. -/
def commandArrives (motes : Nat) (lengths : List Nat) : List UartAct :=
  (bmcCommand false motes 100 10000).map .receive ++
    lengths.flatMap fun k => .gets .zero :: List.replicate k .getchar

theorem commandStored_iff_ten_motes : CommandStored 10 100 10000
    (observe uartStep noteBenchmark (uartInit (fun _ => 0) fun _ => 0) ⟨⟨[], []⟩, clearedBenchmark⟩
      (commandArrives 10 [6])) := by
  have hrun : (exec uartStep (uartInit (fun _ => 0) fun _ => 0) (commandArrives 10 [6])).map
      (fun s => (s.gets, s.stringEvent)) = some (.idle, 0) := by decide +kernel
  have hsent : (observe uartStep noteBenchmark (uartInit (fun _ => 0) fun _ => 0) ⟨⟨[], []⟩, clearedBenchmark⟩
      (commandArrives 10 [6])).sent = bmcCommand false 10 100 10000 := by decide +kernel
  obtain ⟨s, hs, he⟩ := Option.map_eq_some_iff.mp hrun
  obtain ⟨hidle, htokens⟩ := Prod.mk.inj he
  have hd : Drained s := ⟨fun i hi => (nomatch hidle.symm.trans hi), htokens⟩
  exact (commandStored_iff clearedBenchmark _ _ false 10 100 10000 (by decide) (by decide) (by decide)
    (Runs.of_exec hs) hsent hd).mpr (by decide)

/-- With eleven motes the command is handed over as two, and the second one sets 78 nodes. -/
theorem commandStored_fails : ¬ ∀ as s, Runs uartStep Free (uartInit (fun _ => 0) fun _ => 0) as s →
    (observe uartStep noteBenchmark (uartInit (fun _ => 0) fun _ => 0) ⟨⟨[], []⟩, clearedBenchmark⟩ as).sent =
      bmcCommand false 11 100 10000 → Drained s →
    CommandStored 11 100 10000
      (observe uartStep noteBenchmark (uartInit (fun _ => 0) fun _ => 0) ⟨⟨[], []⟩, clearedBenchmark⟩ as) := by
  intro hall
  have hrun : (exec uartStep (uartInit (fun _ => 0) fun _ => 0) (commandArrives 11 [2, 4])).map
      (fun s => (s.gets, s.stringEvent)) = some (.idle, 0) := by decide +kernel
  have hnote : observe uartStep noteBenchmark (uartInit (fun _ => 0) fun _ => 0) ⟨⟨[], []⟩, clearedBenchmark⟩
      (commandArrives 11 [2, 4]) =
      ⟨⟨[0x42, newline, 100, 78, 16, newline], [[0x42, newline], [100, 78, 16, newline]]⟩,
        ⟨100, false, true, 78, 16, 1280⟩⟩ := by
    decide +kernel
  obtain ⟨s, hs, he⟩ := Option.map_eq_some_iff.mp hrun
  obtain ⟨hidle, htokens⟩ := Prod.mk.inj he
  have hd : Drained s := ⟨fun i hi => (nomatch hidle.symm.trans hi), htokens⟩
  have hstored := hall _ s (Runs.of_exec hs) (by rw [hnote]; decide) hd
  rw [hnote] at hstored
  exact absurd hstored.once (by decide)

end Unet4Cooja
