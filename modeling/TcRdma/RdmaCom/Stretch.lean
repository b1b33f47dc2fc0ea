import TcRdma.RdmaCom.Resources

open tc_rdma.machine

namespace tc_rdma.rdma_com

variable {α : Type} {env : Env} {w : World}

/-- A call with its outcome. -/
def Op.answered : Op → Option (Call × Bool)
  | .call _ c ok => some (c, ok)
  | _ => none

/-- The calls that have been made with their outcomes, in their order. -/
def answered (log : List Entry) : List (Call × Bool) := picked Op.answered log

theorem answered_append (log log' : List Entry) : answered (log ++ log') = answered log ++ answered log' :=
  picked_append log log'

theorem outcomes_eq_filterMap (concern : Concern) (log : List Entry) :
    outcomes concern log =
      (answered log).filterMap fun made => if made.1.concern = concern then some made.2 else none := by
  rw [outcomes, picked, answered, picked, List.filterMap_filterMap]
  apply List.filterMap_congr
  intro entry _
  unfold Op.outcome Op.answered
  cases entry.op <;> rfl

/-- A stretch of a run: the calls it makes, with their outcomes, and what it
does to the members of `conn_ctx`. -/
structure Stretch (made : List (Call × Bool)) (f : ConnContext → ConnContext) (w w' : World) : Prop where
  made : ∃ added, w'.log = w.log ++ added ∧ answered added = made
  ctx : w'.conn.conn_ctx = f w.conn.conn_ctx
  wr_cq_number : w'.conn.conn_params.wr_cq_number = w.conn.conn_params.wr_cq_number

theorem Stretch.refl (w : World) : Stretch [] id w w := ⟨⟨[], by simp, rfl⟩, rfl, rfl⟩

theorem Stretch.trans {made made' : List (Call × Bool)} {f g : ConnContext → ConnContext} {a b c : World}
    (hab : Stretch made f a b) (hbc : Stretch made' g b c) : Stretch (made ++ made') (g ∘ f) a c where
  made := by
    obtain ⟨front, hfront, rfl⟩ := hab.made
    obtain ⟨back, hback, rfl⟩ := hbc.made
    exact ⟨front ++ back, by rw [hback, hfront, List.append_assoc], answered_append front back⟩
  ctx := by rw [hbc.ctx, hab.ctx, Function.comp_apply]
  wr_cq_number := hbc.wr_cq_number.trans hab.wr_cq_number

theorem Stretch.answered_since {made : List (Call × Bool)} {f : ConnContext → ConnContext} {w' : World}
    (h : Stretch made f w w') : answered (w'.since w) = made := by
  obtain ⟨added, hadded, hmade⟩ := h.made
  rw [World.since, hadded, List.drop_left, hmade]

/-- What is recorded later comes after the calls of the stretch. -/
theorem Stretch.isPrefix_answered {made : List (Call × Bool)} {f : ConnContext → ConnContext} {w' w'' : World}
    (h : Stretch made f w w') (hgrows : w'.log <+: w''.log) : made <+: answered (w''.since w) := by
  obtain ⟨added, hadded, rfl⟩ := h.made
  obtain ⟨more, hmore⟩ := hgrows
  rw [World.since, ← hmore, hadded, List.append_assoc, List.drop_left, answered_append]
  exact List.prefix_append _ _

theorem Stretch.call (w : World) (n : Handle) (c : Call) (ok : Bool) :
    Stretch [(c, ok)] id w (w.record (.call n c ok)) :=
  ⟨⟨_, rfl, rfl⟩, rfl, rfl⟩

theorem Stretch.modify_ctx (w : World) (f : ConnContext → ConnContext) : Stretch [] f w (w.modify_ctx f) :=
  ⟨⟨[], by simp, rfl⟩, rfl, rfl⟩

section Rules

variable {Q : α → World → Prop} {E : Halt → World → Prop} {c : Call}

/-- A call whose result is not looked at. -/
theorem wp_ignore {x : Prog α} (hx : ∀ ok w', Stretch [(c, ok)] id w w' → wp x Q E w') :
    wp (do let _ ← invoke env c; x) Q E w := by
  rw [wp_bind]
  apply wp_invoke_of
  intro ok
  exact hx ok _ (Stretch.call w _ c ok)

/-- A call whose result is stored. -/
theorem wp_store {f : Ptr → ConnContext → ConnContext} {x : Ptr → Prog α}
    (hx : ∀ p w', Stretch [(c, Option.isSome p)] (f p) w w' → wp (x p) Q E w') :
    wp (do let p ← invoke env c; modify_ctx (f p); x p) Q E w := by
  rw [wp_bind]
  apply wp_invoke_of
  intro ok
  rw [wp_bind, wp_modify_ctx]
  apply hx
  have hcall := Stretch.call w w.log.length c ok
  cases ok with
  | true => exact hcall.trans (Stretch.modify_ctx _ _)
  | false => exact hcall.trans (Stretch.modify_ctx _ _)

/-- A call whose result is stored last. -/
theorem wp_store_last {f : Ptr → ConnContext → ConnContext} {Q : Unit → World → Prop}
    (hQ : ∀ p w', Stretch [(c, Option.isSome p)] (f p) w w' → Q () w') :
    wp (do let p ← invoke env c; modify_ctx (f p)) Q E w :=
  wp_store (x := fun _ => pure ()) hQ

end Rules

end tc_rdma.rdma_com
