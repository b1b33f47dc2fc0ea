import TcRdma.EnvBasic.Assigned
import TcRdma.EnvBasic.Numbers

open tc_rdma.machine
open tc_rdma.rdma_com (Cell MachineType Status)

namespace tc_rdma.env_basic

variable {allocates : Nat → Bool} {argc : Int16} {argv : List CString} {answers rest : List Answer} {answer : Answer}
  {params params' : EnvBasicParam} {process : Process} {sys : System} {ib_dev : CString} {ib_port : Int}

/-- What accepted options assign when no allocation fails. -/
def store_all (answers : List Answer) (params : EnvBasicParam) : EnvBasicParam :=
  answers.foldl (fun params answer => store answer (some answer.optarg) params) params

theorem stored_store_all (answers : List Answer) (params : EnvBasicParam) :
    Stored answers params (store_all answers params) := by
  induction answers generalizing params with
  | nil => exact .nil params
  | cons answer rest ih => exact .cons (some answer.optarg) (ih _)

/-- Only the copied address can be something else than its argument. -/
theorem store_copy (hch : answer.ch ≠ 'J') (copy copy' : Option CString) (params : EnvBasicParam) :
    store answer copy params = store answer copy' params := by
  unfold store
  split <;> first | rfl | contradiction

theorem store_server_ip (answer : Answer) (params : EnvBasicParam) :
    (store answer (some answer.optarg) params).server_ip =
      if answer.ch = 'J' then .set (some answer.optarg) else params.server_ip := by
  by_cases hch : answer.ch = 'J'
  · simp [store, hch]
  · rw [if_neg hch]
    unfold store
    split <;> first | rfl | contradiction

theorem wp_parse_option_works (hallocates : ∀ n, allocates n = true) :
    wp (parse_option allocates answer)
      (fun goes_on process' => goes_on = acceptable answer ∧
        (goes_on = true → process'.env_params = store answer (some answer.optarg) process.env_params))
      (fun _ _ => False) process := by
  by_cases hch : answer.ch = 'J'
  · unfold parse_option
    simp only [hch]
    rw [wp_bind]
    refine ⟨by simp [acceptable, hch], fun _ => ?_⟩
    simp [store, hch, hallocates]
  · apply wp_mono wp_parse_option
    · rintro goes_on process' ⟨haccepted, hstored⟩
      refine ⟨haccepted, fun hgoes_on => ?_⟩
      obtain ⟨copy, hcopy⟩ := hstored hgoes_on
      rw [hcopy, store_copy hch copy]
    · rintro stop process' ⟨-, n, hfailed⟩
      rw [hallocates n] at hfailed
      cases hfailed

theorem wp_parse_options_works (hallocates : ∀ n, allocates n = true) :
    wp (parse_options allocates answers)
      (fun ret process' => (ret = .SUCCESS ↔ ∀ answer ∈ answers, acceptable answer = true) ∧
        (ret = .SUCCESS → process'.env_params = store_all answers process.env_params))
      (fun _ _ => False) process := by
  induction answers generalizing process with
  | nil => exact ⟨by simp, fun _ => rfl⟩
  | cons answer rest ih =>
    apply wp_bind_of (wp_parse_option_works hallocates) _ (fun _ _ h => h)
    rintro goes_on process₁ ⟨rfl, hstores⟩
    rw [wp_ite]
    refine ⟨fun hstops => ?_, fun hgoes_on => ?_⟩
    · have hfalse : acceptable answer = false := by simpa using hstops
      exact ⟨by simp [hfalse], by simp⟩
    · have htrue : acceptable answer = true := by simpa using hgoes_on
      apply wp_mono ih _ (fun _ _ h => h)
      rintro ret process₂ ⟨hiff, hstored⟩
      rw [hstores htrue] at hstored
      exact ⟨by simp [hiff, htrue], hstored⟩

theorem lastOf_cons (ch : Char) (answer : Answer) (rest : List Answer) :
    lastOf ch (answer :: rest) =
      if answer.ch = ch then some ((lastOf ch rest).getD answer.optarg) else lastOf ch rest := by
  unfold lastOf
  rw [List.filterMap_cons]
  by_cases hch : answer.ch = ch
  · rw [if_pos hch, if_pos hch, List.getLast?_cons]
  · rw [if_neg hch, if_neg hch]

/-- The address is a copy of the argument of the last option for it. -/
theorem server_ip_store_all (answers : List Answer) (params : EnvBasicParam) :
    (store_all answers params).server_ip =
      ((lastOf 'J' answers).map fun s => Cell.set (some s)).getD params.server_ip := by
  induction answers generalizing params with
  | nil => rfl
  | cons answer rest ih =>
    rw [show store_all (answer :: rest) params = store_all rest (store answer (some answer.optarg) params) from rfl, ih,
      store_server_ip, lastOf_cons]
    by_cases hch : answer.ch = 'J'
    · rw [if_pos hch, if_pos hch]
      cases lastOf 'J' rest <;> rfl
    · rw [if_neg hch, if_neg hch]

theorem Stored.ib_devname_eq (h : Stored answers params params') :
    params'.ib_devname = ((lastOf 'd' answers).map fun s => Cell.set (some s)).getD params.ib_devname := by
  apply h.of_lastOf
  intro answer copy params
  unfold store
  split <;> first | exact (if_neg ‹answer.ch = 'd' → False›).symm | simp [*]

/-- The host has this device, and a connection can be made through its port. -/
structure System.Offers (sys : System) (ib_dev : CString) (ib_port : Int) : Prop where
  num_of_device : 0 < sys.num_of_device
  listed : ib_dev ∈ sys.dev_list
  opens : sys.opens ib_dev = true
  port : ∃ port_attr, sys.query_port ib_dev ib_port = some port_attr ∧ port_attr.Usable

theorem wp_ctx_find_dev_works (hallocates : ∀ n, sys.allocates n = true)
    (hname : process.env_params.ib_devname = .set (some ib_dev)) :
    wp (ctx_find_dev sys)
      (fun found process' => OnlyName process process' ∧
        found = if 0 < sys.num_of_device ∧ ib_dev ∈ sys.dev_list then some ib_dev else none)
      (fun _ _ => False) process := by
  unfold ctx_find_dev
  rw [wp_ite]
  refine ⟨fun hnone => ?_, fun hsome => ?_⟩
  · exact ⟨((OnlyName.refl process).print _).print _, (if_neg fun hoffers => absurd hoffers.1 (by omega)).symm⟩
  · rw [wp_bind]
    apply wp_load hname
    dsimp only
    rw [wp_ite]
    refine ⟨fun hlisted => ?_, fun hmissing => ?_⟩
    · apply wp_mono wp_select_dev
      · rintro found process' ⟨hfound, honly⟩
        exact ⟨honly, by rw [hfound, if_pos ⟨by omega, hlisted⟩]⟩
      · rintro stop process' ⟨-, n, hfailed⟩
        rw [hallocates n] at hfailed
        cases hfailed
    · exact ⟨(OnlyName.refl process).print _, (if_neg fun hoffers => hmissing hoffers.2).symm⟩

theorem wp_check_state_only {port_attr : IbvPortAttr}
    (hlink : process.env_params.link_type = .set port_attr.link_layer) :
    wp (check_state ib_port port_attr) (fun ret _ => ret = .SUCCESS → port_attr.Usable) (fun _ _ => False) process := by
  unfold check_state
  rw [wp_ite]
  refine ⟨fun _ => fun hret => Status.noConfusion hret, fun hstate => ?_⟩
  rw [wp_bind]
  apply wp_load hlink
  rw [wp_ite]
  exact ⟨fun _ => fun hret => Status.noConfusion hret, fun hknown _ => ⟨of_not_not hstate, hknown⟩⟩

/-- The port is looked at where it has been asked for. -/
theorem wp_check_port_only {env_context : CString} (hport : process.env_params.ib_port = .set ib_port)
    (hlink : process.env_params.link_type = .set LINK_UNSPEC) :
    wp (check_port sys env_context)
      (fun ret _ => ret = .SUCCESS →
        ∃ port_attr, sys.query_port env_context ib_port = some port_attr ∧ port_attr.Usable)
      (fun _ _ => False) process := by
  unfold check_port
  rw [wp_bind, wp_modify_params]
  generalize htyped : process.modify_params _ = typed
  have hlink : typed.env_params.link_type = .set LINK_UNSPEC := by rw [← htyped]; exact hlink
  have hport : typed.env_params.ib_port = .set ib_port := by rw [← htyped]; exact hport
  rw [wp_bind]
  apply wp_load hlink
  rw [wp_bind]
  apply wp_load hport
  split
  · intro hret
    cases hret
  · rename_i port_attr hquery
    have hunspec : int8 LINK_UNSPEC = LINK_UNSPEC := by decide
    rw [wp_bind, set_link_type, if_pos hunspec, wp_modify_params]
    apply wp_mono (wp_check_state_only rfl) _ (fun _ _ h => h)
    exact fun ret process' husable hret => ⟨port_attr, hquery, husable hret⟩

/-- `check_env` succeeds exactly when the host offers what has been asked for. -/
theorem wp_check_env_works (hallocates : ∀ n, sys.allocates n = true)
    (hname : process.env_params.ib_devname = .set (some ib_dev)) (hport : process.env_params.ib_port = .set ib_port)
    (hlink : process.env_params.link_type = .set LINK_UNSPEC) :
    wp (check_env sys)
      (fun ret process' => Untouched process process' ∧ (ret = .SUCCESS ↔ sys.Offers ib_dev ib_port))
      (fun _ _ => False) process := by
  apply wp_bind_of (wp_ctx_find_dev_works hallocates hname) _ (fun _ _ h => h)
  rintro found process₁ ⟨honly, rfl⟩
  split
  · rename_i hnone
    refine ⟨honly.toUntouched.print _, iff_of_false (by simp) fun hoffers => ?_⟩
    rw [if_pos ⟨hoffers.num_of_device, hoffers.listed⟩] at hnone
    cases hnone
  · rename_i found hsome
    split at hsome
    · rename_i hlisted
      cases hsome
      rw [wp_ite]
      refine ⟨fun hfailed => ?_, fun hopens => ?_⟩
      · refine ⟨honly.toUntouched.print _, iff_of_false (by simp) fun hoffers => ?_⟩
        rw [hoffers.opens] at hfailed
        cases hfailed
      · rw [← honly.ib_port] at hport
        rw [← honly.link_type] at hlink
        apply wp_mono (wp_and (wp_check_port hport hlink) (wp_check_port_only hport hlink)) _ (fun _ _ h => h.1)
        rintro ret process₂ ⟨⟨huntouched, husable⟩, honly_usable⟩
        refine ⟨honly.toUntouched.trans huntouched, fun hret => ?_, fun hoffers => ?_⟩
        · exact ⟨hlisted.1, hlisted.2, by simpa using hopens, honly_usable hret⟩
        · obtain ⟨port_attr, hquery, hattr⟩ := hoffers.port
          exact husable port_attr hquery hattr
    · cases hsome

/-- The port of the device that the options ask for. -/
def asked_ib_port (answers : List Answer) : Int :=
  ((lastOf 'i' answers).map fun s => uint8 (strtol s).1).getD DEF_IB_PORT

def asked_server_port (answers : List Answer) : Int :=
  ((lastOf 'K' answers).map fun s => int32 (strtol s).1).getD DEF_PORT

/-- The parameters of the connection that the options ask for. There are none
for a client without the address of its server. -/
def asked (answers : List Answer) : Option rdma_com.EnvBasicParam :=
  match role answers with
  | .SERVER => some { server_ip := none, server_port := asked_server_port answers, machine := .SERVER }
  | .CLIENT =>
    (lastOf 'J' answers).map fun server_ip =>
      { server_ip := some (String.ofList server_ip), server_port := asked_server_port answers, machine := .CLIENT }

/-- The parameters are those that the options ask for, and those of
`init_env_params` where no option does. -/
structure Process.Parsed (answers : List Answer) (process : Process) : Prop where
  machine : process.env_params.machine = .set (role answers)
  server_port : process.env_params.server_port = .set (asked_server_port answers)
  server_ip : process.env_params.server_ip = ((lastOf 'J' answers).map fun s => Cell.set (some s)).getD .indeterminate

theorem Process.Parsed.untouched {process' : Process} (h : process.Parsed answers)
    (hsame : Untouched process process') :
    process'.Parsed answers where
  machine := hsame.machine.trans h.machine
  server_port := hsame.server_port.trans h.server_port
  server_ip := hsame.server_ip.trans h.server_ip

theorem parsed_of_store_all (hstored : process.env_params = store_all answers Process.start.env_params) :
    process.Parsed answers where
  machine := by
    rw [hstored]
    exact (stored_store_all answers _).machine_eq rfl
  server_port := by
    rw [hstored, (stored_store_all answers _).server_port_eq, asked_server_port]
    cases lastOf 'K' answers <;> rfl
  server_ip := by
    rw [hstored, server_ip_store_all]
    rfl

/-- The connection is given what the options ask for, once it has its channel
and its id. -/
theorem wp_run_params_works (h : process.Parsed answers) :
    wp (run_params sys (role answers))
      (fun ret _ => ret = if sys.creates_channel ∧ sys.creates_id then asked answers else none)
      (fun _ _ => sys.creates_channel = true ∧ sys.creates_id = true ∧ asked answers = none) process := by
  unfold run_params
  rw [wp_ite]
  refine ⟨fun hfailed => ?_, fun hchannel => ?_⟩
  · simp at hfailed
    simp [hfailed, wp, pure, EStateM.pure]
  · rw [wp_ite]
    refine ⟨fun hfailed => ?_, fun hid => ?_⟩
    · simp at hfailed
      simp [hfailed, wp, pure, EStateM.pure]
    · have hcreated : sys.creates_channel = true ∧ sys.creates_id = true :=
        ⟨by simpa using hchannel, by simpa using hid⟩
      rw [wp_bind]
      apply wp_load h.server_port
      rw [if_pos hcreated, asked]
      cases hrole : role answers with
      | SERVER => exact rfl
      | CLIENT =>
        dsimp only
        rw [wp_bind]
        have hip := h.server_ip
        cases hlast : lastOf 'J' answers with
        | none =>
          rw [hlast] at hip
          rw [wp_load_unassigned hip]
          exact ⟨hcreated.1, hcreated.2, rfl⟩
        | some server_ip =>
          rw [hlast] at hip
          exact wp_load hip rfl

/-- No device is found under a name that nobody has assigned. -/
theorem wp_check_env_unnamed (hname : process.env_params.ib_devname = .indeterminate) :
    wp (check_env sys) (fun ret _ => ret = .FAILURE) (fun _ _ => True) process := by
  have hfind : wp (ctx_find_dev sys) (fun found _ => found = none) (fun _ _ => True) process := by
    unfold ctx_find_dev
    rw [wp_ite]
    refine ⟨fun _ => rfl, fun _ => ?_⟩
    rw [wp_bind, wp_load_unassigned hname]
    trivial
  apply wp_bind_of hfind _ (fun _ _ _ => trivial)
  rintro found process' rfl
  exact rfl

/-- The options get a connection started with these parameters. -/
structure Starts (sys : System) (answers : List Answer) (params : rdma_com.EnvBasicParam) : Prop where
  acceptable : ∀ answer ∈ answers, acceptable answer = true
  device : ∃ ib_dev, lastOf 'd' answers = some ib_dev ∧ sys.Offers ib_dev (asked_ib_port answers)
  created : sys.creates_channel = true ∧ sys.creates_id = true
  asked : asked answers = some params

theorem wp_main_works (hallocates : ∀ n, sys.allocates n = true) (params : rdma_com.EnvBasicParam) :
    wp (main sys argc argv) (fun ret _ => ret = some params ↔ Starts sys (options argc argv) params)
      (fun _ _ => ¬ Starts sys (options argc argv) params) .start := by
  apply wp_bind_of (wp_parse_options_works hallocates) _ (fun _ _ h => h.elim)
  rintro ret process₁ ⟨hiff, hstored⟩
  rw [wp_ite]
  refine ⟨fun hfailed => ?_, fun hparsed => ?_⟩
  · refine iff_of_false (by simp) fun hall => ?_
    rw [hiff.mpr hall.acceptable] at hfailed
    cases hfailed
  have hret : ret = .SUCCESS := by
    cases ret with
    | SUCCESS => rfl
    | FAILURE => exact absurd rfl hparsed
  have hacceptable := hiff.mp hret
  have hstored := hstored hret
  have hname := (stored_store_all (options argc argv) Process.start.env_params).ib_devname_eq
  have hport := (stored_store_all (options argc argv) Process.start.env_params).ib_port_eq
  have hlink := ((stored_store_all (options argc argv) _).initialized initialized_start).link_type
  rw [← hstored] at hname hport hlink
  cases hdev : lastOf 'd' (options argc argv) with
  | none =>
    rw [hdev] at hname
    apply wp_bind_of (wp_check_env_unnamed hname)
    · rintro ret process₂ rfl
      refine iff_of_false (by simp) fun hall => ?_
      obtain ⟨dev, hsome, -⟩ := hall.device
      rw [hdev] at hsome
      cases hsome
    · intro stop process₂ _ hall
      obtain ⟨dev, hsome, -⟩ := hall.device
      rw [hdev] at hsome
      cases hsome
  | some ib_dev =>
    rw [hdev] at hname
    have hport : process₁.env_params.ib_port = .set (asked_ib_port (options argc argv)) := by
      rw [hport, asked_ib_port]
      cases lastOf 'i' (options argc argv) <;> rfl
    apply wp_bind_of (wp_check_env_works hallocates hname hport hlink) _ (fun _ _ h => h.elim)
    rintro ret process₂ ⟨huntouched, hoffers⟩
    rw [wp_ite]
    refine ⟨fun hfailed => ?_, fun hchecked => ?_⟩
    · refine iff_of_false (by simp) fun hall => ?_
      obtain ⟨dev, hsame, hoffered⟩ := hall.device
      rw [hdev] at hsame
      cases hsame
      rw [hoffers.mpr hoffered] at hfailed
      cases hfailed
    have hoffered : sys.Offers ib_dev (asked_ib_port (options argc argv)) := by
      apply hoffers.mp
      cases ret with
      | SUCCESS => rfl
      | FAILURE => exact absurd rfl hchecked
    have hread := (parsed_of_store_all hstored).untouched huntouched
    rw [wp_bind]
    apply wp_load hread.machine
    apply wp_mono (wp_run_params_works hread)
    · rintro ret process₃ rfl
      constructor
      · intro hsome
        split at hsome
        · exact ⟨hacceptable, ⟨ib_dev, hdev, hoffered⟩, ‹_›, hsome⟩
        · cases hsome
      · intro hall
        rw [if_pos hall.created, hall.asked]
    · rintro stop process₃ ⟨-, -, hnone⟩ hall
      have hsome := hall.asked
      rw [hnone] at hsome
      cases hsome

/-- When no allocation fails, `main` gives a connection its parameters exactly
when every option is acceptable, the last device named is on the host, opens
and has an active port of a known link layer under the number asked for, the
channel and the id can be created, and a client has been told the address. The
parameters are then those of the last options, and the defaults elsewhere. -/
theorem main_starts_iff (hallocates : ∀ n, sys.allocates n = true) (argc : Int16) (argv : List CString)
    (params : rdma_com.EnvBasicParam) :
    (∃ process, main sys argc argv .start = .ok (some params) process) ↔
      Starts sys (options argc argv) params := exists_ok_iff_of_wp (wp_main_works hallocates params)

/-- A client that is told its port twice. -/
def clientArgv : List CString :=
  ["tctest", "-d", "mlx5_0", "--dest_port=7", "-P", "-J10.0.0.1", "-K", "7471"].map String.toList

theorem main_starts_iff_client :
    ∃ process, main (workingSystem "mlx5_0".toList) 8 clientArgv .start =
      .ok (some { server_ip := some "10.0.0.1", server_port := 7471, machine := .CLIENT }) process := by
  refine (main_starts_iff (fun _ => rfl) 8 clientArgv _).mpr ⟨by decide, ?_, ⟨rfl, rfl⟩, by decide⟩
  refine ⟨"mlx5_0".toList, by decide, ?_⟩
  exact ⟨by decide, List.mem_singleton_self _, rfl, ⟨2, .IBV_PORT_ACTIVE⟩, rfl, rfl, by decide⟩

end tc_rdma.env_basic
