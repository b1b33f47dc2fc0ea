import TcRdma.EnvBasic.CheckEnv
import TcRdma.EnvBasic.Parsed
import TcRdma.RdmaCom.Footprint

open tc_rdma.machine
open tc_rdma.rdma_com (Cell MachineType Status)

namespace tc_rdma.env_basic

variable {argc : Int16} {argv : List CString} {answers : List Answer} {params params' : EnvBasicParam}
  {process : Process} {sys : System}

/-- Whatever comes of its calls, the process reads no member of its parameters
that nobody has assigned. -/
def ReadsAssigned (argc : Int16) (argv : List CString) : Prop :=
  ∀ sys : System,
    wp (main sys argc argv) (fun _ _ => True) (fun stop _ => ∀ field, stop ≠ .indeterminate field) .start

/-- The machine that an option chooses. -/
def chosen (answer : Answer) : Option MachineType :=
  match answer.ch with
  | 'Z' => some .SERVER
  | 'P' => some .CLIENT
  | _ => none

/-- The last choice, where a server is the default. -/
def role (answers : List Answer) : MachineType := ((answers.filterMap chosen).getLast?).getD .SERVER

/-- The option is among those given. -/
def Given (ch : Char) (answers : List Answer) : Prop := ∃ answer ∈ answers, answer.ch = ch

theorem Stored.machine_eq (h : Stored answers params params') (hserver : params.machine = .set .SERVER) :
    params'.machine = .set (role answers) := by
  have hlast := h.getLast (f := EnvBasicParam.machine) (h := fun answer => (chosen answer).map Cell.set) (by
    intro answer copy params
    unfold store chosen
    split <;> simp [*])
  rw [hlast, hserver, role, ← List.map_filterMap, List.getLast?_map]
  cases (answers.filterMap chosen).getLast? with
  | none => rfl
  | some machine => rfl

/-- What no option undoes stays. -/
theorem Stored.keeps {P : EnvBasicParam → Prop} (hkeep : ∀ answer copy params, P params → P (store answer copy params))
    (h : Stored answers params params') (hP : P params) : P params' := by
  induction h with
  | nil params => exact hP
  | cons copy _ ih => exact ih (hkeep _ copy _ hP)

/-- What an option brings about and no option undoes. -/
theorem Stored.of_given {P : EnvBasicParam → Prop} {ch : Char}
    (hkeep : ∀ answer copy params, P params → P (store answer copy params))
    (hassign : ∀ answer copy params, answer.ch = ch → P (store answer copy params))
    (h : Stored answers params params') (hgiven : Given ch answers) : P params' := by
  induction h with
  | nil params =>
    obtain ⟨answer, hmem, -⟩ := hgiven
    cases hmem
  | cons copy h ih =>
    obtain ⟨answer, hmem, hch⟩ := hgiven
    rcases List.mem_cons.mp hmem with rfl | hmem
    · exact h.keeps hkeep (hassign _ copy _ hch)
    · exact ih ⟨answer, hmem, hch⟩

/-- What only an option that is not given would change. -/
theorem Stored.of_not_given {β : Type} {f : EnvBasicParam → β} {ch : Char}
    (hother : ∀ answer copy params, answer.ch ≠ ch → f (store answer copy params) = f params)
    (h : Stored answers params params') (hnot : ¬ Given ch answers) : f params' = f params := by
  induction h with
  | nil params => rfl
  | @cons answer rest params params' copy _ ih =>
    have hrest : ¬ Given ch rest := by
      rintro ⟨other, hmem, hch⟩
      exact hnot ⟨other, List.mem_cons_of_mem _ hmem, hch⟩
    rw [ih hrest]
    exact hother _ copy _ fun hch => hnot ⟨answer, List.mem_cons_self, hch⟩

/-- The members that are read on every way. -/
structure EnvBasicParam.Initialized (params : EnvBasicParam) : Prop where
  server_port : params.server_port.IsSet
  ib_port : params.ib_port.IsSet
  link_type : params.link_type = .set LINK_UNSPEC

theorem Stored.initialized (h : Stored answers params params') (hinit : params.Initialized) : params'.Initialized := by
  apply h.keeps _ hinit
  rintro answer copy params ⟨hserver_port, hib_port, hlink_type⟩
  unfold store
  split <;> exact ⟨by first | exact hserver_port | exact ⟨_, rfl⟩, by first | exact hib_port | exact ⟨_, rfl⟩,
    hlink_type⟩

theorem Stored.ib_devname_of_given (h : Stored answers params params') (hgiven : Given 'd' answers) :
    ∃ name, params'.ib_devname = .set (some name) := by
  apply h.of_given _ _ hgiven
  · rintro answer copy params hset
    unfold store
    split <;> first | exact hset | exact ⟨_, rfl⟩
  · intro answer copy params hch
    exact ⟨answer.optarg, by simp [store, hch]⟩

theorem Stored.server_ip_of_given (h : Stored answers params params') (hgiven : Given 'J' answers) :
    params'.server_ip.IsSet := by
  apply h.of_given _ _ hgiven
  · rintro answer copy params hset
    unfold store
    split <;> first | exact hset | exact ⟨_, rfl⟩
  · intro answer copy params hch
    exact ⟨copy, by simp [store, hch]⟩

theorem Stored.ib_devname_of_not_given (h : Stored answers params params') (hnot : ¬ Given 'd' answers) :
    params'.ib_devname = params.ib_devname := by
  apply h.of_not_given _ hnot
  intro answer copy params hne
  unfold store
  split <;> first | rfl | contradiction

theorem Stored.server_ip_of_not_given (h : Stored answers params params') (hnot : ¬ Given 'J' answers) :
    params'.server_ip = params.server_ip := by
  apply h.of_not_given _ hnot
  intro answer copy params hne
  unfold store
  split <;> first | rfl | contradiction

theorem initialized_start : Process.start.env_params.Initialized := ⟨⟨_, rfl⟩, ⟨_, rfl⟩, rfl⟩

/-- `check_env` leaves the members alone that `main` and `run` read later. -/
structure Untouched (process process' : Process) : Prop where
  machine : process'.env_params.machine = process.env_params.machine
  server_port : process'.env_params.server_port = process.env_params.server_port
  server_ip : process'.env_params.server_ip = process.env_params.server_ip

theorem Untouched.refl (process : Process) : Untouched process process := ⟨rfl, rfl, rfl⟩

theorem Untouched.print {process process' : Process} (h : Untouched process process') (text : String) :
    Untouched process (process'.print text) := ⟨h.machine, h.server_port, h.server_ip⟩

theorem Untouched.trans {a b c : Process} (hab : Untouched a b) (hbc : Untouched b c) : Untouched a c :=
  ⟨hbc.machine.trans hab.machine, hbc.server_port.trans hab.server_port, hbc.server_ip.trans hab.server_ip⟩

/-- What `ctx_find_dev` may change of the parameters. -/
structure OnlyName (process process' : Process) : Prop extends Untouched process process' where
  ib_port : process'.env_params.ib_port = process.env_params.ib_port
  link_type : process'.env_params.link_type = process.env_params.link_type

theorem OnlyName.refl (process : Process) : OnlyName process process := ⟨Untouched.refl process, rfl, rfl⟩

theorem OnlyName.print {process process' : Process} (h : OnlyName process process') (text : String) :
    OnlyName process (process'.print text) := ⟨h.toUntouched.print text, h.ib_port, h.link_type⟩

theorem wp_select_dev {ib_dev : CString} :
    wp (select_dev sys ib_dev) (fun found process' => found = some ib_dev ∧ OnlyName process process')
      (fun stop _ => stop = .exit_1 ∧ ∃ n, sys.allocates n = false) process := by
  apply wp_bind_of wp_GET_STRING _ (fun _ _ h => h)
  rintro name process' ⟨-, hsame⟩
  have honly : OnlyName process process' :=
    ⟨⟨by rw [hsame], by rw [hsame], by rw [hsame]⟩, by rw [hsame], by rw [hsame]⟩
  exact ⟨rfl, ⟨honly.machine, honly.server_port, honly.server_ip⟩, honly.ib_port, honly.link_type⟩

/-- Once the name is assigned, `ctx_find_dev` reads nothing that is not. -/
theorem wp_ctx_find_dev {ib_devname : Option CString} (hname : process.env_params.ib_devname = .set ib_devname) :
    wp (ctx_find_dev sys)
      (fun found process' => OnlyName process process' ∧
        (0 < sys.num_of_device → ∀ name ∈ sys.dev_list, ib_devname = some name → found = some name))
      (fun stop _ => stop = .exit_1 ∧ ((∃ n, sys.allocates n = false) ∨ ib_devname = none)) process := by
  unfold ctx_find_dev
  rw [wp_ite]
  refine ⟨fun hnone => ?_, fun _ => ?_⟩
  · exact ⟨((OnlyName.refl process).print _).print _, fun hsome => absurd hsome (by omega)⟩
  · rw [wp_bind]
    apply wp_load hname
    cases ib_devname with
    | none =>
      dsimp only
      split
      · exact ⟨rfl, .inr rfl⟩
      · rename_i ib_dev _ _
        apply wp_mono wp_select_dev
        · rintro found process' ⟨-, honly⟩
          exact ⟨honly, by simp⟩
        · exact fun stop _ h => ⟨h.1, .inl h.2⟩
    | some ib_devname =>
      dsimp only
      rw [wp_ite]
      refine ⟨fun _ => ?_, fun hmissing => ?_⟩
      · apply wp_mono wp_select_dev
        · rintro found process' ⟨rfl, honly⟩
          exact ⟨honly, fun _ name _ hsame => hsame⟩
        · exact fun stop _ h => ⟨h.1, .inl h.2⟩
      · refine ⟨(OnlyName.refl process).print _, fun _ name hmem hsame => ?_⟩
        cases hsame
        exact absurd hmem hmissing

/-- What is asked of a port. -/
def IbvPortAttr.Usable (port_attr : IbvPortAttr) : Prop :=
  port_attr.state = .IBV_PORT_ACTIVE ∧ link_layer_str (int8 port_attr.link_layer) ≠ "Unknown"

theorem wp_check_state {ib_port : Int} {port_attr : IbvPortAttr}
    (hlink : process.env_params.link_type = .set port_attr.link_layer) :
    wp (check_state ib_port port_attr)
      (fun ret process' => Untouched process process' ∧ (port_attr.Usable → ret = .SUCCESS)) (fun _ _ => False)
      process := by
  unfold check_state
  rw [wp_ite]
  refine ⟨fun hstate => ?_, fun _ => ?_⟩
  · exact ⟨(Untouched.refl process).print _, fun husable => absurd husable.1 hstate⟩
  · rw [wp_bind]
    apply wp_load hlink
    rw [wp_ite]
    refine ⟨fun hunknown => ?_, fun _ => ⟨Untouched.refl process, fun _ => rfl⟩⟩
    exact ⟨(Untouched.refl process).print _, fun husable => absurd hunknown husable.2⟩

theorem wp_check_port {env_context : CString} {ib_port : Int} (hport : process.env_params.ib_port = .set ib_port)
    (hlink : process.env_params.link_type = .set LINK_UNSPEC) :
    wp (check_port sys env_context)
      (fun ret process' => Untouched process process' ∧
        (∀ port_attr, sys.query_port env_context ib_port = some port_attr → port_attr.Usable → ret = .SUCCESS))
      (fun _ _ => False) process := by
  unfold check_port
  rw [wp_bind, wp_modify_params]
  generalize htyped : process.modify_params _ = typed
  have huntouched : Untouched process typed := by rw [← htyped]; exact ⟨rfl, rfl, rfl⟩
  have hlink : typed.env_params.link_type = .set LINK_UNSPEC := by rw [← htyped]; exact hlink
  have hport : typed.env_params.ib_port = .set ib_port := by rw [← htyped]; exact hport
  rw [wp_bind]
  apply wp_load hlink
  rw [wp_bind]
  apply wp_load hport
  split
  · rename_i hquery
    refine ⟨huntouched.print _, fun port_attr hsome => ?_⟩
    rw [hquery] at hsome
    cases hsome
  · rename_i port_attr hquery
    have hunspec : int8 LINK_UNSPEC = LINK_UNSPEC := by decide
    rw [wp_bind, set_link_type, if_pos hunspec, wp_modify_params]
    apply wp_mono (wp_check_state rfl) _ (fun _ _ h => h)
    rintro ret process' ⟨hchecked, husable⟩
    have hset : Untouched process process' :=
      huntouched.trans ⟨hchecked.machine, hchecked.server_port, hchecked.server_ip⟩
    refine ⟨hset, fun other hsome => ?_⟩
    rw [hquery] at hsome
    cases hsome
    exact husable

/-- Once the name is assigned, `check_env` reads nothing that is not. -/
theorem wp_check_env {ib_devname : Option CString} {ib_port : Int}
    (hname : process.env_params.ib_devname = .set ib_devname) (hport : process.env_params.ib_port = .set ib_port)
    (hlink : process.env_params.link_type = .set LINK_UNSPEC) :
    wp (check_env sys)
      (fun ret process' => Untouched process process' ∧
        (∀ ib_dev, ib_devname = some ib_dev → sys = workingSystem ib_dev → ret = .SUCCESS))
      (fun stop _ => stop = .exit_1 ∧ ((∃ n, sys.allocates n = false) ∨ ib_devname = none)) process := by
  apply wp_bind_of (wp_ctx_find_dev hname) _ (fun _ _ h => h)
  rintro found process₁ ⟨honly, hfound⟩
  cases found with
  | none =>
    refine ⟨honly.toUntouched.print _, fun ib_dev hsome hsys => ?_⟩
    subst hsys
    have hmem : ib_dev ∈ (workingSystem ib_dev).dev_list := List.mem_singleton_self ib_dev
    cases hfound Int.zero_lt_one ib_dev hmem hsome
  | some ib_dev =>
    dsimp only
    rw [wp_ite]
    refine ⟨fun hfailed => ?_, fun _ => ?_⟩
    · refine ⟨honly.toUntouched.print _, fun ib_dev hsome hsys => ?_⟩
      subst hsys
      simp [workingSystem] at hfailed
    · rw [← honly.ib_port] at hport
      rw [← honly.link_type] at hlink
      apply wp_mono (wp_check_port hport hlink) _ (fun _ _ h => h.elim)
      rintro ret process₂ ⟨huntouched, husable⟩
      refine ⟨honly.toUntouched.trans huntouched, fun ib_dev _ hsys => ?_⟩
      subst hsys
      exact husable _ rfl ⟨rfl, by decide⟩

theorem wp_run_params {machine : MachineType} (hport : process.env_params.server_port.IsSet)
    (hip : machine = .CLIENT → process.env_params.server_ip.IsSet) :
    wp (run_params sys machine) (fun _ _ => True) (fun _ _ => False) process := by
  obtain ⟨server_port, hport⟩ := hport
  unfold run_params
  rw [wp_ite]
  refine ⟨fun _ => trivial, fun _ => ?_⟩
  rw [wp_ite]
  refine ⟨fun _ => trivial, fun _ => ?_⟩
  rw [wp_bind]
  apply wp_load hport
  cases machine with
  | SERVER => trivial
  | CLIENT =>
    obtain ⟨server_ip, hip⟩ := hip rfl
    dsimp only
    rw [wp_bind]
    apply wp_load hip
    trivial

/-- With a device and, for a client, an address, nothing is missing. -/
theorem readsAssigned_of_given
    (hgiven : (∀ answer ∈ options argc argv, acceptable answer = true) → Given 'd' (options argc argv) ∧
      (role (options argc argv) = .CLIENT → Given 'J' (options argc argv))) : ReadsAssigned argc argv := by
  intro sys
  have hexit : ∀ {stop : Stop}, stop = .exit_1 → ∀ field, stop ≠ .indeterminate field := by
    intro stop hstop field
    rw [hstop]
    exact Stop.noConfusion
  apply wp_bind_of wp_parse_options _ (fun _ _ h => hexit h.1)
  rintro ret process₁ ⟨hiff, hstored⟩
  rw [wp_ite]
  refine ⟨fun _ => trivial, fun hsuccess => ?_⟩
  have hsuccess : ret = .SUCCESS := by
    cases ret with
    | SUCCESS => rfl
    | FAILURE => exact absurd rfl hsuccess
  have hstored := hstored hsuccess
  obtain ⟨hdevice, haddress⟩ := hgiven (hiff.mp hsuccess)
  obtain ⟨ib_devname, hname⟩ := hstored.ib_devname_of_given hdevice
  obtain ⟨hserver_port, ⟨ib_port, hport⟩, hlink⟩ := hstored.initialized initialized_start
  apply wp_bind_of (wp_check_env hname hport hlink) _ (fun _ _ h => hexit h.1)
  rintro ret process₂ ⟨huntouched, -⟩
  rw [wp_ite]
  refine ⟨fun _ => trivial, fun _ => ?_⟩
  have hmachine := huntouched.machine.trans (hstored.machine_eq rfl)
  rw [wp_bind]
  apply wp_load hmachine
  apply wp_mono (wp_run_params _ _) (fun _ _ _ => trivial) (fun _ _ h => h.elim)
  · rw [huntouched.server_port]
    exact hserver_port
  · intro hclient
    rw [huntouched.server_ip]
    exact hstored.server_ip_of_given (haddress hclient)

/-- Without a device `ctx_find_dev` reads a name that nobody has assigned. -/
theorem ReadsAssigned.device (h : ReadsAssigned argc argv)
    (hacceptable : ∀ answer ∈ options argc argv, acceptable answer = true) : Given 'd' (options argc argv) := by
  by_contra hnot
  have hallocates : ∀ n, (workingSystem []).allocates n = true := fun _ => rfl
  obtain ⟨process₁, hparse, hstored⟩ := parse_params_succeeds .start hallocates hacceptable
  have hunset : process₁.env_params.ib_devname = .indeterminate := hstored.ib_devname_of_not_given hnot
  have hmain := h (workingSystem [])
  unfold main at hmain
  rw [wp_bind_ok hparse, if_neg (by simp), wp_bind, check_env, wp_bind, ctx_find_dev, if_neg (by decide), wp_bind,
    wp_load_unassigned hunset] at hmain
  exact hmain .ib_devname rfl

/-- Without an address a client that has got so far reads one that nobody has
assigned. -/
theorem ReadsAssigned.address (h : ReadsAssigned argc argv)
    (hacceptable : ∀ answer ∈ options argc argv, acceptable answer = true)
    (hclient : role (options argc argv) = .CLIENT) : Given 'J' (options argc argv) := by
  by_contra hnot
  have hallocates : ∀ n, (workingSystem []).allocates n = true := fun _ => rfl
  obtain ⟨process₁, hparse, hstored⟩ := parse_params_succeeds .start hallocates hacceptable
  obtain ⟨ib_dev, hname⟩ := hstored.ib_devname_of_given (h.device hacceptable)
  obtain ⟨⟨server_port, hserver_port⟩, ⟨ib_port, hport⟩, hlink⟩ := hstored.initialized initialized_start
  have hcheck : wp (check_env (workingSystem ib_dev))
      (fun ret process₂ => ret = .SUCCESS ∧ Untouched process₁ process₂) (fun _ _ => False) process₁ := by
    apply wp_mono (wp_check_env hname hport hlink)
    · exact fun ret process₂ hchecked => ⟨hchecked.2 ib_dev rfl rfl, hchecked.1⟩
    · rintro stop process₂ ⟨-, ⟨n, hfailed⟩ | hnone⟩
      · cases hfailed
      · cases hnone
  obtain ⟨ret, process₂, hchecked, rfl, huntouched⟩ := exists_ok_of_wp hcheck
  have hmachine : process₂.env_params.machine = .set .CLIENT := by
    rw [huntouched.machine, hstored.machine_eq rfl, hclient]
  have hserver_port : process₂.env_params.server_port = .set server_port := huntouched.server_port.trans hserver_port
  have hunset : process₂.env_params.server_ip = .indeterminate :=
    huntouched.server_ip.trans (hstored.server_ip_of_not_given hnot)
  have hparse : parse_params (workingSystem ib_dev).allocates argc argv .start = .ok .SUCCESS process₁ := hparse
  have hmain := h (workingSystem ib_dev)
  unfold main at hmain
  rw [wp_bind_ok hparse, if_neg (by simp), wp_bind_ok hchecked, if_neg (by simp), wp_bind, wp_load_iff hmachine,
    run_params, if_neg (by simp [workingSystem]), if_neg (by simp [workingSystem]), wp_bind,
    wp_load_iff hserver_port] at hmain
  dsimp only at hmain
  rw [wp_bind, wp_load_unassigned hunset] at hmain
  exact hmain .server_ip rfl

/-- Nothing unassigned is read exactly when the options of a command line that
is accepted name a device and, for a client, the address of the server. -/
theorem readsAssigned_iff (argc : Int16) (argv : List CString) :
    ReadsAssigned argc argv ↔
      ((∀ answer ∈ options argc argv, acceptable answer = true) →
        Given 'd' (options argc argv) ∧ (role (options argc argv) = .CLIENT → Given 'J' (options argc argv))) := by
  constructor
  · intro h hacceptable
    exact ⟨h.device hacceptable, h.address hacceptable⟩
  · exact readsAssigned_of_given

/-- A server that is started without any option. -/
theorem not_readsAssigned_of_no_options : ¬ ReadsAssigned 1 ["tctest".toList] := by
  intro h
  have hacceptable : ∀ answer ∈ options 1 ["tctest".toList], acceptable answer = true := by decide
  obtain ⟨answer, hmem, -⟩ := h.device hacceptable
  cases hmem

end tc_rdma.env_basic
