import Dnfast.Durable.Rules

/-! # Invariants of programs over durable state

`Exec.Keeps I m`: the program `m` keeps the invariant `I` of the durable state, whatever fails and
wherever the process dies. There is one rule for each combinator, so an invariant of a whole program
reduces to one of its durable steps. -/

namespace Durable.Exec

variable {σ τ ε α β : Type}

/-- Every end of `m` from a state in `I`, crashes included, is in `I`. -/
def Keeps (I : σ → Prop) (m : Exec σ ε α) : Prop :=
  ∀ s, I s → Sat (fun _ => True) m s fun _ s' => I s'

namespace Keeps

variable {I : σ → Prop} {m : Exec σ ε α} {f : α → Exec σ ε β}

theorem run (h : Keeps I m) {s : σ} (hs : I s) (fates : List (Fate ε)) : I (m fates s).2.1 :=
  (h s hs).run fates

theorem pure (a : α) : Keeps I (Pure.pure a : Exec σ ε α) :=
  fun _ hs => sat_pure hs

theorem throw (e : ε) : Keeps I (Exec.throw e : Exec σ ε α) :=
  fun _ hs => sat_throw hs

theorem lift (x : Except ε α) : Keeps I (Exec.lift x : Exec σ ε α) :=
  fun _ hs => sat_lift (fun _ _ => hs) fun _ _ => hs

theorem step {operation : σ → Except ε (α × σ)}
    (h : ∀ s a s', I s → operation s = .ok (a, s') → I s') : Keeps I (Exec.step operation) :=
  fun s hs => sat_step (fun _ => hs) (fun _ _ => hs) (fun a s' => h s a s' hs) fun _ _ => hs

theorem observe (read : σ → Except ε α) : Keeps I (Exec.observe read) :=
  fun _ hs => sat_observe (fun _ => hs) (fun _ _ => hs) (fun _ _ => hs) fun _ _ => hs

theorem change {update : σ → σ} (h : ∀ s, I s → I (update s)) :
    Keeps I (Exec.change update : Exec σ ε Unit) :=
  fun s hs => sat_change (fun _ => hs) (fun _ _ => hs) (h s hs)

theorem sync : Keeps I (Exec.sync : Exec σ ε Unit) :=
  change fun _ hs => hs

theorem bind (hm : Keeps I m) (hf : ∀ a, Keeps I (f a)) : Keeps I (m >>= f) :=
  fun s hs => (hm s hs).bind (fun a s' hs' => hf a s' hs') (fun _ _ hs' => hs') fun _ hs' => hs'

theorem attempt (hm : Keeps I m) : Keeps I (Exec.attempt m) := by
  refine fun s hs => sat_attempt ((hm s hs).mono ?_)
  rintro (_ | _ | _) s' hs'
  · exact hs'
  · exact hs'
  · exact hs'

theorem onErr {cleanup : Exec σ ε Unit} (hm : Keeps I m) (hc : Keeps I cleanup) :
    Keeps I (Exec.onErr m cleanup) := by
  refine bind (attempt hm) fun result => ?_
  cases result with
  | ok a => exact pure a
  | error e => exact bind (attempt hc) fun _ => throw e

theorem forEach {g : α → Exec σ ε Unit} (as : List α) (h : ∀ a ∈ as, Keeps I (g a)) :
    Keeps I (Exec.forEach g as) := by
  induction as with
  | nil => exact pure ()
  | cons a as ih =>
    exact bind (h a List.mem_cons_self) fun _ => ih fun b hb => h b (List.mem_cons_of_mem _ hb)

theorem mapEach {g : α → Exec σ ε β} (as : List α) (h : ∀ a ∈ as, Keeps I (g a)) :
    Keeps I (Exec.mapEach g as) := by
  induction as with
  | nil => exact pure []
  | cons a as ih =>
    refine bind (h a List.mem_cons_self) fun b => ?_
    exact bind (ih fun a' ha' => h a' (List.mem_cons_of_mem _ ha')) fun bs => pure _

/-- A program on a part of the state keeps `I` when it keeps what `I` says about that part. -/
theorem zoom {get : σ → Option τ} {set : τ → σ → σ} {missing : ε} {m : Exec τ ε α}
    {J : σ → τ → Prop} (hm : ∀ s, I s → Keeps (J s) m)
    (hget : ∀ s t, I s → get s = some t → J s t)
    (hset : ∀ s t t', I s → get s = some t → J s t' → I (set t' s)) :
    Keeps I (Exec.zoom get set missing m) := by
  refine fun s hs => sat_zoom (fun _ => hs) fun t ht => ?_
  exact (hm s hs t (hget s t hs ht)).mono fun _ t' ht' => hset s t t' hs ht ht'

end Keeps

end Durable.Exec
