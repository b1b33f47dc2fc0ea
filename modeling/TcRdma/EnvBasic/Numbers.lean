import TcRdma.EnvBasic.Parsed
import TcRdma.RdmaCom.Ports

open tc_rdma.machine
open tc_rdma.rdma_com (Cell PortKept portKept_iff)

namespace tc_rdma.env_basic

variable {argc : Int16} {argv : List CString} {answers : List Answer} {answer : Answer} {params params' : EnvBasicParam}
  {ch : Char} {s : CString} {port value : Int}

/-- The argument of the last option of a kind. -/
def lastOf (ch : Char) (answers : List Answer) : Option CString :=
  (answers.filterMap fun answer => if answer.ch = ch then some answer.optarg else none).getLast?

/-- The numbers are those of the last options, and no option has a number that
does not fit its type. -/
structure AsGiven (answers : List Answer) (params : EnvBasicParam) : Prop where
  ib_port : ∀ s, lastOf 'i' answers = some s → ∃ value, denoted s = some value ∧ params.ib_port = .set value
  ib_port_least : ∃ value, params.ib_port = .set value ∧ MIN_IB_PORT ≤ value
  server_port : ∀ s, lastOf 'K' answers = some s → ∃ value, denoted s = some value ∧ params.server_port = .set value
  port_kept : ∃ value, params.server_port = .set value ∧ PortKept value
  ib_ports : ∀ answer ∈ answers, answer.ch = 'i' →
    ∃ value, denoted answer.optarg = some value ∧ 0 ≤ value ∧ value < 2 ^ 8
  server_ports : ∀ answer ∈ answers, answer.ch = 'K' →
    ∃ value, denoted answer.optarg = some value ∧ -2 ^ 31 ≤ value ∧ value < 2 ^ 31

def NumbersAsGiven (argc : Int16) (argv : List CString) : Prop :=
  ∀ allocates process', parse_params allocates argc argv .start = .ok .SUCCESS process' →
    AsGiven (options argc argv) process'.env_params

/-- The numbers fit where `parse_params` does not look: before the casts of the
macro, and the last port before the cast of `run`, which refuses it when it is
negative. -/
structure InRange (answers : List Answer) : Prop where
  ib_port : ∀ answer ∈ answers, answer.ch = 'i' → ∀ value, denoted answer.optarg = some value →
    0 ≤ value ∧ value < 2 ^ 8
  not_empty : ∀ answer ∈ answers, answer.ch = 'K' → answer.optarg ≠ []
  server_port : ∀ answer ∈ answers, answer.ch = 'K' → ∀ value, denoted answer.optarg = some value →
    -2 ^ 31 ≤ value ∧ value < 2 ^ 31
  last : ∀ s value, lastOf 'K' answers = some s → denoted s = some value → 0 ≤ value ∧ value < 2 ^ 16

theorem exists_of_lastOf (h : lastOf ch answers = some s) : ∃ answer ∈ answers, answer.ch = ch ∧ answer.optarg = s := by
  have hmem := List.mem_of_getLast? h
  obtain ⟨answer, hanswer, hsome⟩ := List.mem_filterMap.mp hmem
  split at hsome
  · exact ⟨answer, hanswer, ‹_›, by simpa using hsome⟩
  · cases hsome

/-- What the options of a kind assign is what the last of them assigns. -/
theorem Stored.of_lastOf {β : Type} {f : EnvBasicParam → β} {g : CString → β}
    (hstore : ∀ answer copy params, f (store answer copy params) = if answer.ch = ch then g answer.optarg else f params)
    (h : Stored answers params params') : f params' = ((lastOf ch answers).map g).getD (f params) := by
  have hlast := h.getLast (f := f) (h := fun answer => (if answer.ch = ch then some answer.optarg else none).map g) (by
    intro answer copy params
    rw [hstore]
    split <;> rfl)
  rw [hlast, lastOf, ← List.map_filterMap, List.getLast?_map]

theorem Stored.ib_port_eq (h : Stored answers params params') :
    params'.ib_port = ((lastOf 'i' answers).map fun s => Cell.set (uint8 (strtol s).1)).getD params.ib_port := by
  apply h.of_lastOf
  intro answer copy params
  unfold store
  split <;> first | exact (if_neg ‹answer.ch = 'i' → False›).symm | simp [*]

theorem Stored.server_port_eq (h : Stored answers params params') :
    params'.server_port = ((lastOf 'K' answers).map fun s => Cell.set (int32 (strtol s).1)).getD params.server_port := by
  apply h.of_lastOf
  intro answer copy params
  unfold store
  split <;> first | exact (if_neg ‹answer.ch = 'K' → False›).symm | simp [*]

/-- The test of the lower bound refuses the empty string as well. -/
theorem acceptable_ib_port (h : acceptable answer = true) (hch : answer.ch = 'i') :
    (∃ value, denoted answer.optarg = some value) ∧ MIN_IB_PORT ≤ uint8 (strtol answer.optarg).1 := by
  obtain ⟨hrest, hleast⟩ : (strtol answer.optarg).2 = [] ∧ MIN_IB_PORT ≤ uint8 (strtol answer.optarg).1 := by
    simpa [acceptable, hch] using h
  refine ⟨?_, hleast⟩
  rcases strtol_complete_iff.mp hrest with hempty | hvalue
  · have hless : ¬ MIN_IB_PORT ≤ uint8 (strtol []).1 := by decide
    rw [hempty] at hleast
    exact absurd hleast hless
  · exact hvalue

theorem acceptable_server_port (h : acceptable answer = true) (hch : answer.ch = 'K') (hempty : answer.optarg ≠ []) :
    ∃ value, denoted answer.optarg = some value := by
  have hrest : (strtol answer.optarg).2 = [] := by simpa [acceptable, hch] using h
  exact (strtol_complete_iff.mp hrest).resolve_left hempty

/-- A number that fits in an `int` fits in a `long`. -/
theorem strtol_of_int (h : denoted s = some value) (hmin : -2 ^ 31 ≤ value) (hmax : value < 2 ^ 31) :
    (strtol s).1 = value := by
  apply strtol_value h
  · unfold LONG_MIN
    omega
  · unfold LONG_MAX
    omega

/-- The cast keeps what fits. -/
theorem uint8_strtol (h : denoted s = some value) (hmin : 0 ≤ value) (hmax : value < 2 ^ 8) :
    uint8 (strtol s).1 = value := by
  rw [strtol_of_int h (by omega) (by omega)]
  exact Int.emod_eq_of_lt hmin hmax

theorem int32_strtol (h : denoted s = some value) (hmin : -2 ^ 31 ≤ value) (hmax : value < 2 ^ 31) :
    int32 (strtol s).1 = value := by
  rw [strtol_of_int h hmin hmax, int32, Int.bmod_def]
  split <;> omega

theorem NumbersAsGiven.inRange (h : NumbersAsGiven argc argv)
    (hacceptable : ∀ answer ∈ options argc argv, acceptable answer = true) : InRange (options argc argv) := by
  have hallocates : ∀ n, (fun _ => true : Nat → Bool) n = true := fun _ => rfl
  obtain ⟨process', hparse, -⟩ := parse_params_succeeds .start hallocates hacceptable
  have hgiven := h _ process' hparse
  constructor
  · intro answer hmem hch value hvalue
    obtain ⟨other, hother, hrange⟩ := hgiven.ib_ports answer hmem hch
    rw [hvalue] at hother
    cases hother
    exact hrange
  · intro answer hmem hch hempty
    obtain ⟨value, hvalue, -⟩ := hgiven.server_ports answer hmem hch
    rw [hempty, denoted_nil] at hvalue
    cases hvalue
  · intro answer hmem hch value hvalue
    obtain ⟨other, hother, hrange⟩ := hgiven.server_ports answer hmem hch
    rw [hvalue] at hother
    cases hother
    exact hrange
  · intro s value hlast hvalue
    obtain ⟨other, hother, hstored⟩ := hgiven.server_port s hlast
    obtain ⟨port, hport, hkept⟩ := hgiven.port_kept
    rw [hvalue] at hother
    cases hother
    rw [hstored] at hport
    cases hport
    exact portKept_iff.mp hkept

theorem InRange.ib_ports (h : InRange answers) (hacceptable : ∀ answer ∈ answers, acceptable answer = true) :
    ∀ answer ∈ answers, answer.ch = 'i' → ∃ value, denoted answer.optarg = some value ∧ 0 ≤ value ∧
      value < 2 ^ 8 := by
  intro answer hmem hch
  obtain ⟨value, hvalue⟩ := (acceptable_ib_port (hacceptable answer hmem) hch).1
  exact ⟨value, hvalue, h.ib_port answer hmem hch value hvalue⟩

theorem InRange.server_ports (h : InRange answers) (hacceptable : ∀ answer ∈ answers, acceptable answer = true) :
    ∀ answer ∈ answers, answer.ch = 'K' → ∃ value, denoted answer.optarg = some value ∧ -2 ^ 31 ≤ value ∧
      value < 2 ^ 31 := by
  intro answer hmem hch
  obtain ⟨value, hvalue⟩ := acceptable_server_port (hacceptable answer hmem) hch (h.not_empty answer hmem hch)
  exact ⟨value, hvalue, h.server_port answer hmem hch value hvalue⟩

theorem InRange.asGiven (h : InRange answers) (hacceptable : ∀ answer ∈ answers, acceptable answer = true)
    (hstored : Stored answers Process.start.env_params params) : AsGiven answers params := by
  have hport := hstored.ib_port_eq
  have hserver := hstored.server_port_eq
  have hlast : ∀ s, lastOf 'K' answers = some s → ∃ value, denoted s = some value ∧
      params.server_port = .set value := by
    intro s hs
    obtain ⟨answer, hmem, hch, rfl⟩ := exists_of_lastOf hs
    obtain ⟨value, hvalue, hmin, hmax⟩ := h.server_ports hacceptable answer hmem hch
    rw [hs, Option.map_some, Option.getD_some, int32_strtol hvalue hmin hmax] at hserver
    exact ⟨value, hvalue, hserver⟩
  refine ⟨?_, ?_, hlast, ?_, h.ib_ports hacceptable, h.server_ports hacceptable⟩
  · intro s hs
    obtain ⟨answer, hmem, hch, rfl⟩ := exists_of_lastOf hs
    obtain ⟨value, hvalue, hmin, hmax⟩ := h.ib_ports hacceptable answer hmem hch
    rw [hs, Option.map_some, Option.getD_some, uint8_strtol hvalue hmin hmax] at hport
    exact ⟨value, hvalue, hport⟩
  · cases hs : lastOf 'i' answers with
    | none =>
      rw [hs] at hport
      exact ⟨DEF_IB_PORT, hport, by decide⟩
    | some s =>
      obtain ⟨answer, hmem, hch, rfl⟩ := exists_of_lastOf hs
      rw [hs] at hport
      exact ⟨_, hport, (acceptable_ib_port (hacceptable answer hmem) hch).2⟩
  · cases hs : lastOf 'K' answers with
    | none =>
      rw [hs] at hserver
      exact ⟨DEF_PORT, hserver, portKept_iff.mpr (by decide)⟩
    | some s =>
      obtain ⟨value, hvalue, hset⟩ := hlast s hs
      exact ⟨value, hset, portKept_iff.mpr (h.last s value hs hvalue)⟩

/-- The numbers of every command line that is accepted are as given exactly
when those that are accepted are in range. -/
theorem numbersAsGiven_iff (argc : Int16) (argv : List CString) :
    NumbersAsGiven argc argv ↔
      ((∀ answer ∈ options argc argv, acceptable answer = true) → InRange (options argc argv)) := by
  constructor
  · exact NumbersAsGiven.inRange
  · intro h allocates process' hparse
    obtain ⟨hacceptable, hstored⟩ := of_parse_params hparse
    exact (h hacceptable).asGiven hacceptable hstored

/-- The port 257 is accepted as port 1. -/
theorem not_numbersAsGiven_of_257 : ¬ NumbersAsGiven 3 ["tctest".toList, "-i".toList, "257".toList] := by
  intro h
  have hacceptable : ∀ answer ∈ options 3 ["tctest".toList, "-i".toList, "257".toList], acceptable answer = true := by
    decide
  have hrange := (h.inRange hacceptable).ib_port ⟨'i', "257".toList⟩ (by decide) rfl 257 (by decide)
  omega

end tc_rdma.env_basic
