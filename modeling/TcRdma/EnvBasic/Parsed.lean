import TcRdma.EnvBasic.ParseParams

open tc_rdma.machine
open tc_rdma.rdma_com (Cell MachineType Status)

namespace tc_rdma.env_basic

/-- The tests that an option has to pass. -/
def acceptable (answer : Answer) : Bool :=
  match answer.ch with
  | 'd' => true
  | 'i' => (strtol answer.optarg).2 == [] && MIN_IB_PORT ≤ uint8 (strtol answer.optarg).1
  | 'J' => true
  | 'j' => true
  | 'K' => (strtol answer.optarg).2 == []
  | 'k' => true
  | 'Z' => true
  | 'P' => true
  | _ => false

/-- What an accepted option assigns, where `copy` is what `strdup` returns. -/
def store (answer : Answer) (copy : Option CString) (params : EnvBasicParam) : EnvBasicParam :=
  match answer.ch with
  | 'd' => { params with ib_devname := .set (some answer.optarg) }
  | 'i' => { params with ib_port := .set (uint8 (strtol answer.optarg).1) }
  | 'J' => { params with server_ip := .set copy }
  | 'K' => { params with server_port := .set (int32 (strtol answer.optarg).1) }
  | 'Z' => { params with machine := .set .SERVER }
  | 'P' => { params with machine := .set .CLIENT }
  | _ => params

/-- What accepted options assign one after the other. -/
inductive Stored : List Answer → EnvBasicParam → EnvBasicParam → Prop where
  | nil (params : EnvBasicParam) : Stored [] params params
  | cons {answer : Answer} {rest : List Answer} {params params' : EnvBasicParam} (copy : Option CString)
      (h : Stored rest (store answer copy params) params') : Stored (answer :: rest) params params'

variable {allocates : Nat → Bool} {answers rest : List Answer} {answer : Answer} {process : Process}

/-- What each option either replaces or leaves is in the end what the last
option that replaces it has made of it. -/
theorem Stored.getLast {β : Type} {f : EnvBasicParam → β} {h : Answer → Option β}
    (hstore : ∀ answer copy params, f (store answer copy params) = (h answer).getD (f params))
    {params params' : EnvBasicParam} (hstored : Stored answers params params') :
    f params' = ((answers.filterMap h).getLast?).getD (f params) := by
  induction hstored with
  | nil params => rfl
  | @cons answer rest params params' copy _ ih =>
    rw [ih, hstore]
    cases hanswer : h answer with
    | none => rw [List.filterMap_cons_none hanswer, Option.getD_none]
    | some b => rw [List.filterMap_cons_some hanswer, List.getLast?_cons, Option.getD_some, Option.getD_some]

theorem wp_CHECK_VALUE {arg : Int → EnvBasicParam → EnvBasicParam} {cast : Int → Int} {type name : String}
    {optarg : CString} {E : Stop → Process → Prop} :
    wp (CHECK_VALUE arg cast type name optarg)
      (fun whole process' => whole = ((strtol optarg).2 == []) ∧
        process'.env_params = arg (cast (strtol optarg).1) process.env_params) E process := by
  unfold CHECK_VALUE
  rw [wp_bind]
  show wp (if _ then _ else _) _ _ _
  rw [wp_ite]
  refine ⟨fun hrest => ⟨?_, rfl⟩, fun hrest => ⟨?_, rfl⟩⟩
  · simpa using hrest
  · simpa using hrest

theorem wp_GET_STRING {temp : CString} :
    wp (GET_STRING allocates temp)
      (fun copied process' => copied = temp ∧ process'.env_params = process.env_params)
      (fun stop _ => stop = .exit_1 ∧ ∃ n, allocates n = false) process := by
  unfold GET_STRING
  rw [wp_bind]
  show wp (if _ then _ else _) _ _ _
  rw [wp_ite]
  refine ⟨fun hfailed => ⟨rfl, process.allocations, ?_⟩, fun _ => ⟨rfl, rfl⟩⟩
  simpa using hfailed

/-- The loop goes on after an option exactly when it is acceptable, and has
assigned its member. -/
theorem wp_parse_option :
    wp (parse_option allocates answer)
      (fun goes_on process' => goes_on = acceptable answer ∧
        (goes_on = true → ∃ copy, process'.env_params = store answer copy process.env_params))
      (fun stop _ => stop = .exit_1 ∧ ∃ n, allocates n = false) process := by
  unfold parse_option
  split
  · rename_i hch
    apply wp_bind_of wp_GET_STRING _ (fun _ _ h => h)
    rintro _ process' ⟨rfl, hsame⟩
    refine ⟨by simp [acceptable, hch], fun _ => ⟨none, ?_⟩⟩
    simp [store, hch, hsame]
  · rename_i hch
    apply wp_bind_of wp_CHECK_VALUE _ (fun _ _ h => h)
    rintro whole process' ⟨rfl, hstored⟩
    rw [wp_ite]
    refine ⟨fun hrest => ?_, fun hwhole => ?_⟩
    · refine ⟨?_, by simp⟩
      simp at hrest
      simp [acceptable, hch, hrest]
    · have hport : process'.env_params.ib_port = .set (uint8 (strtol answer.optarg).1) := by rw [hstored]
      simp only [Bool.not_eq_true, Bool.not_eq_false', beq_iff_eq] at hwhole
      rw [wp_bind]
      apply wp_load hport
      rw [wp_ite]
      refine ⟨fun hless => ⟨?_, by simp⟩, fun hleast => ⟨?_, fun _ => ⟨none, ?_⟩⟩⟩
      · simp [acceptable, hch, hless]
      · simpa [acceptable, hch, hwhole] using hleast
      · simpa [store, hch] using hstored
  · rename_i hch
    rw [wp_bind]
    refine ⟨by simp [acceptable, hch], fun _ => ?_⟩
    refine ⟨if allocates process.allocations then some answer.optarg else none, ?_⟩
    simp [store, hch]
  · rename_i hch
    exact ⟨by simp [acceptable, hch], fun _ => ⟨none, by simp [store, hch]⟩⟩
  · rename_i hch
    apply wp_mono wp_CHECK_VALUE _ (fun _ _ h => h)
    rintro whole process' ⟨rfl, hstored⟩
    exact ⟨by simp [acceptable, hch], fun _ => ⟨none, by simpa [store, hch] using hstored⟩⟩
  · rename_i hch
    exact ⟨by simp [acceptable, hch], fun _ => ⟨none, by simp [store, hch]⟩⟩
  · rename_i hch
    exact ⟨by simp [acceptable, hch], fun _ => ⟨none, by simp [store, hch]⟩⟩
  · rename_i hch
    exact ⟨by simp [acceptable, hch], fun _ => ⟨none, by simp [store, hch]⟩⟩
  · exact ⟨by simp [acceptable, *], by simp⟩

/-- All options are acceptable where the loop returns `SUCCESS`, and it returns
that where they are. -/
theorem wp_parse_options :
    wp (parse_options allocates answers)
      (fun ret process' => (ret = .SUCCESS ↔ ∀ answer ∈ answers, acceptable answer = true) ∧
        (ret = .SUCCESS → Stored answers process.env_params process'.env_params))
      (fun stop _ => stop = .exit_1 ∧ ∃ n, allocates n = false) process := by
  induction answers generalizing process with
  | nil => exact ⟨by simp, fun _ => .nil _⟩
  | cons answer rest ih =>
    apply wp_bind_of wp_parse_option _ (fun _ _ h => h)
    rintro goes_on process₁ ⟨rfl, hstores⟩
    rw [wp_ite]
    refine ⟨fun hstops => ?_, fun hgoes_on => ?_⟩
    · have hfalse : acceptable answer = false := by simpa using hstops
      exact ⟨by simp [hfalse], by simp⟩
    · have htrue : acceptable answer = true := by simpa using hgoes_on
      obtain ⟨copy, hcopy⟩ := hstores htrue
      apply wp_mono ih _ (fun _ _ h => h)
      rintro ret process₂ ⟨hiff, hstored⟩
      rw [hcopy] at hstored
      exact ⟨by simp [hiff, htrue], fun hret => .cons copy (hstored hret)⟩

/-- Where no allocation fails, acceptable options are parsed. -/
theorem parse_params_succeeds {argc : Int16} {argv : List CString} (process : Process)
    (hallocates : ∀ n, allocates n = true)
    (hacceptable : ∀ answer ∈ options argc argv, acceptable answer = true) :
    ∃ process', parse_params allocates argc argv process = .ok .SUCCESS process' ∧
      Stored (options argc argv) process.env_params process'.env_params := by
  have hparse : wp (parse_params allocates argc argv)
      (fun ret process' => ret = .SUCCESS ∧ Stored (options argc argv) process.env_params process'.env_params)
      (fun _ _ => False) process := by
    apply wp_mono wp_parse_options
    · rintro ret process' ⟨hiff, hstored⟩
      have hsuccess := hiff.mpr hacceptable
      exact ⟨hsuccess, hstored hsuccess⟩
    · rintro stop process' ⟨-, n, hfailed⟩
      rw [hallocates n] at hfailed
      cases hfailed
  obtain ⟨ret, process', hok, rfl, hstored⟩ := exists_ok_of_wp hparse
  exact ⟨process', hok, hstored⟩

/-- What `SUCCESS` tells of the options and of the parameters. -/
theorem of_parse_params {argc : Int16} {argv : List CString} {process' : Process}
    (hparse : parse_params allocates argc argv process = .ok .SUCCESS process') :
    (∀ answer ∈ options argc argv, acceptable answer = true) ∧
      Stored (options argc argv) process.env_params process'.env_params := by
  obtain ⟨hiff, hstored⟩ := wp_ok wp_parse_options hparse
  exact ⟨hiff.mp rfl, hstored rfl⟩

end tc_rdma.env_basic
