import TcRdma.EnvBasic.Startup
import TcRdma.Machine.Decimal
import TcRdma.Machine.Spelling

open tc_rdma.machine
open tc_rdma.rdma_com (MachineType PortKept portKept_iff)

namespace tc_rdma.env_basic

variable {answers answers' : List Answer} {ch : Char} {s : CString} {sys : System}

/-- What a user wants of the program. -/
structure Wish where
  machine : MachineType
  ib_devname : CString
  ib_port : Nat
  server_ip : CString
  server_port : Nat
  deriving DecidableEq, Repr

/-- The numbers fit the types that they are kept in. -/
structure Wish.Fits (wish : Wish) : Prop where
  ib_port : MIN_IB_PORT ≤ wish.ib_port ∧ wish.ib_port < 2 ^ 8
  server_port : wish.server_port < 2 ^ 16

def machine_option : MachineType → Char
  | .SERVER => 'Z'
  | .CLIENT => 'P'

/-- The options that tell it. -/
def Wish.options (wish : Wish) : List Answer :=
  [⟨machine_option wish.machine, []⟩, ⟨'d', wish.ib_devname⟩, ⟨'i', Nat.toDigits 10 wish.ib_port⟩,
    ⟨'J', wish.server_ip⟩, ⟨'K', Nat.toDigits 10 wish.server_port⟩]

/-- The parameters of its connection. The server does not read an address. -/
def Wish.params (wish : Wish) : rdma_com.EnvBasicParam :=
  { server_ip := match wish.machine with
      | .SERVER => none
      | .CLIENT => some (String.ofList wish.server_ip)
    server_port := wish.server_port
    machine := wish.machine }

/-- When only one option of the kind is given, the order does not matter. -/
theorem lastOf_of_perm (hperm : answers.Perm answers')
    (hone : (answers'.filterMap fun answer => if answer.ch = ch then some answer.optarg else none) = [s]) :
    lastOf ch answers = some s := by
  have hperm := hperm.filterMap fun answer => if answer.ch = ch then some answer.optarg else none
  rw [hone, List.perm_singleton] at hperm
  rw [lastOf, hperm]
  rfl

theorem role_of_perm {machine : MachineType} (hperm : answers.Perm answers')
    (hone : answers'.filterMap chosen = [machine]) :
    role answers = machine := by
  have hperm := hperm.filterMap chosen
  rw [hone, List.perm_singleton] at hperm
  rw [role, hperm]
  rfl

/-- The options of a wish, in any order, ask for it. -/
structure Wish.Told (wish : Wish) (answers : List Answer) : Prop where
  machine : role answers = wish.machine
  ib_devname : lastOf 'd' answers = some wish.ib_devname
  ib_port : lastOf 'i' answers = some (Nat.toDigits 10 wish.ib_port)
  server_ip : lastOf 'J' answers = some wish.server_ip
  server_port : lastOf 'K' answers = some (Nat.toDigits 10 wish.server_port)

theorem Wish.told_of_perm {wish : Wish} (hperm : answers.Perm wish.options) : wish.Told answers := by
  obtain ⟨machine, ib_devname, ib_port, server_ip, server_port⟩ := wish
  cases machine with
  | SERVER =>
    exact ⟨role_of_perm hperm rfl, lastOf_of_perm hperm rfl, lastOf_of_perm hperm rfl, lastOf_of_perm hperm rfl,
      lastOf_of_perm hperm rfl⟩
  | CLIENT =>
    exact ⟨role_of_perm hperm rfl, lastOf_of_perm hperm rfl, lastOf_of_perm hperm rfl, lastOf_of_perm hperm rfl,
      lastOf_of_perm hperm rfl⟩

theorem machine_option_acceptable (machine : MachineType) : acceptable ⟨machine_option machine, []⟩ = true := by
  cases machine <;> rfl

theorem uint8_toDigits {n : Nat} (hn : n < 2 ^ 8) : uint8 (strtol (Nat.toDigits 10 n)).1 = n :=
  uint8_strtol (denoted_toDigits n) (by omega) (by omega)

theorem int32_toDigits {n : Nat} (hn : n < 2 ^ 16) : int32 (strtol (Nat.toDigits 10 n)).1 = n :=
  int32_strtol (denoted_toDigits n) (by omega) (by omega)

theorem strtol_toDigits_rest (n : Nat) : (strtol (Nat.toDigits 10 n)).2 = [] :=
  strtol_complete_iff.mpr (.inr ⟨n, denoted_toDigits n⟩)

theorem Wish.Fits.acceptable {wish : Wish} (h : wish.Fits) : ∀ answer ∈ wish.options, acceptable answer = true := by
  have hport : env_basic.acceptable ⟨'i', Nat.toDigits 10 wish.ib_port⟩ = true := by
    have hleast := h.ib_port.1
    simp [env_basic.acceptable, strtol_toDigits_rest, uint8_toDigits h.ib_port.2, hleast]
  have hserver : env_basic.acceptable ⟨'K', Nat.toDigits 10 wish.server_port⟩ = true := by
    simp [env_basic.acceptable, strtol_toDigits_rest]
  intro answer hmem
  simp only [Wish.options, List.mem_cons, List.not_mem_nil, or_false] at hmem
  rcases hmem with rfl | rfl | rfl | rfl | rfl
  · exact machine_option_acceptable wish.machine
  · rfl
  · exact hport
  · rfl
  · exact hserver

theorem Wish.Told.asked {wish : Wish} (h : wish.Told answers) (hfits : wish.Fits) :
    asked answers = some wish.params := by
  have hport : asked_server_port answers = wish.server_port := by
    rw [asked_server_port, h.server_port, Option.map_some, Option.getD_some, int32_toDigits hfits.server_port]
  rw [env_basic.asked, h.machine, hport, h.server_ip, Wish.params]
  cases wish.machine <;> rfl

theorem Wish.Told.asked_ib_port {wish : Wish} (h : wish.Told answers) (hfits : wish.Fits) :
    asked_ib_port answers = wish.ib_port := by
  rw [env_basic.asked_ib_port, h.ib_port, Option.map_some, Option.getD_some, uint8_toDigits hfits.ib_port.2]

/-- The elements behind the name of the program are all looked at. -/
theorem options_cons {argc : Int16} {program : CString} {args : List CString} (hargc : argc.toInt = args.length + 1) :
    options argc (program :: args) = getopt_long optstring long_options none args := by
  rw [options, hargc, show ((args.length : Int) + 1).toNat = (program :: args).length by simp, List.take_length,
    List.drop_one, List.tail_cons]

/-- However the options of a wish are written and in whatever order, `main`
starts a connection with just what was wished for, on a host that has it; and
the wished port is the one that its run binds or resolves. Options may be
grouped or abbreviated, their arguments attached or not, and what is no option
or follows a bare `--` does not matter. -/
theorem main_round_trip {wish : Wish} (hfits : wish.Fits) {spellings : List Spelling}
    (hvalid : ∀ spelling ∈ spellings, spelling.Valid optstring long_options)
    (hwish : (spellings.flatMap Spelling.answers).Perm wish.options) {argc : Int16} (program : CString)
    {rest : List CString} (hrest : rest = [] ∨ rest.head? = some ['-', '-'])
    (hargc : argc.toInt = (spellings.flatMap Spelling.elements ++ rest).length + 1)
    (hallocates : ∀ n, sys.allocates n = true) (hoffers : sys.Offers wish.ib_devname wish.ib_port)
    (hcreated : sys.creates_channel = true ∧ sys.creates_id = true) :
    (∃ process, main sys argc (program :: (spellings.flatMap Spelling.elements ++ rest)) .start =
      .ok (some wish.params) process) ∧ PortKept wish.server_port := by
  have hserver := hfits.server_port
  refine ⟨?_, portKept_iff.mpr (by omega)⟩
  have hread : options argc (program :: (spellings.flatMap Spelling.elements ++ rest)) =
      spellings.flatMap Spelling.answers := by
    rw [options_cons hargc, getopt_long_spellings hvalid rest hrest]
  have htold := Wish.told_of_perm hwish
  refine (exists_ok_iff_of_wp (wp_main_works hallocates wish.params)).mpr ?_
  rw [hread]
  constructor
  · intro answer hmem
    exact hfits.acceptable answer (hwish.mem_iff.mp hmem)
  · refine ⟨wish.ib_devname, htold.ib_devname, ?_⟩
    rw [htold.asked_ib_port hfits]
    exact hoffers
  · exact hcreated
  · exact htold.asked hfits

/-- A client that is told everything in one way or another. -/
def clientWish : Wish :=
  { machine := .CLIENT, ib_devname := "mlx5_0".toList, ib_port := 2, server_ip := "10.0.0.1".toList,
    server_port := 7471 }

def clientSpellings : List Spelling :=
  [.attached ['P'] 'i' "2".toList, .long_attached "dest_p".toList ⟨"dest_port".toList, true, 'K'⟩ "7471".toList,
    .operand "and".toList, .separate [] 'd' "mlx5_0".toList,
    .long_separate "dest_ip".toList ⟨"dest_ip".toList, true, 'J'⟩ "10.0.0.1".toList]

example : clientSpellings.flatMap Spelling.elements =
    ["-Pi2", "--dest_p=7471", "and", "-d", "mlx5_0", "--dest_ip", "10.0.0.1"].map String.toList := by decide

theorem main_round_trip_client :
    ∃ process, main (workingSystem "mlx5_0".toList) 8
      ("tctest".toList :: (clientSpellings.flatMap Spelling.elements ++ []))
      .start = .ok (some clientWish.params) process := by
  have hvalid : ∀ spelling ∈ clientSpellings, spelling.Valid optstring long_options := by decide
  have hoffers : (workingSystem "mlx5_0".toList).Offers clientWish.ib_devname clientWish.ib_port :=
    ⟨by decide, List.mem_singleton_self _, rfl, ⟨2, .IBV_PORT_ACTIVE⟩, rfl, rfl, by decide⟩
  exact (main_round_trip ⟨by decide, by decide⟩ hvalid (by decide) "tctest".toList (.inl rfl) (by decide) (fun _ => rfl)
    hoffers ⟨rfl, rfl⟩).1

end tc_rdma.env_basic
