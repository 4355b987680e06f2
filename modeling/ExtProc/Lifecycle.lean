import Mathlib.Logic.Function.Basic
import ExtProc.Startup
import ExtProc.Steps

/-! The three servers from their start to the shutdown, in any order of steps. -/
namespace ExtProc

variable {FilterEntry : Type} {P : PipelineCrates FilterEntry} {H : Host P} {L : Launch H}

/-- The servers that `start_services` spawns. -/
inductive Auxiliary where
  | health
  | metrics
  deriving DecidableEq, Repr

inductive TaskStatus where
  | starting
  | listening
  | ended (failed : Bool)
  deriving DecidableEq, Repr

inductive Listener (H : Host P) where
  | grpc (addr : H.SocketAddr) (tls : Option H.Identity)
  | auxiliary (which : Auxiliary) (addr : H.SocketAddr)

/-- Where `start_services` stands; it runs the gRPC server itself. -/
inductive MainPc where
  | starting
  | serving
  | joiningHealth
  | joiningMetrics
  | returned (result : Except StartError Unit)

structure Services (H : Host P) where
  main : MainPc
  senderAlive : Bool
  auxiliary : Auxiliary → TaskStatus
  signalled : Bool
  listeners : List (Listener H)

/-- Both tasks spawned, and the sender of the shutdown broadcast not dropped yet. -/
def Services.start : Services H where
  main := .starting
  senderAlive := true
  auxiliary _ := .starting
  signalled := false
  listeners := []

def Launch.auxiliaryAddr (L : Launch H) : Auxiliary → H.SocketAddr
  | .health => L.addrs.health
  | .metrics => L.addrs.metrics

namespace Services

/-- `start_services` goes on where the sender was dropped. -/
def dropSender (v : Services H) (main : MainPc) : Services H :=
  { v with main := main, senderAlive := false }

def setAuxiliary (v : Services H) (which : Auxiliary) (status : TaskStatus) : Services H :=
  { v with auxiliary := Function.update v.auxiliary which status }

def listen (v : Services H) (listener : Listener H) : Services H :=
  { v with listeners := v.listeners ++ [listener] }

end Services

inductive ServicesActor where
  | main
  | auxiliary (which : Auxiliary)
  | signal
  | fault
  deriving DecidableEq

/-- A step of `start_services`, of a spawned server, of `shutdown_signal`, which ends when a signal
comes or none can be awaited, or a server that fails. A spawned server goes on until the broadcast
closes; it outlives connections it cannot accept. -/
inductive ServicesStep (L : Launch H) : ServicesActor → Services H → Services H → Prop
  | tlsFailed {v : Services H} {e : Error} (hmain : v.main = .starting)
      (htls : buildTlsConfig H L.tls = .error e) :
      ServicesStep L .main v (v.dropSender (.returned (.error (.error e))))
  | grpcListens {v : Services H} {tls : Option H.Identity} (hmain : v.main = .starting)
      (htls : buildTlsConfig H L.tls = .ok tls) :
      ServicesStep L .main v ({ v with main := .serving }.listen (.grpc L.addrs.grpc tls))
  | grpcNotStarted {v : Services H} {tls : Option H.Identity} (message : String)
      (hmain : v.main = .starting) (htls : buildTlsConfig H L.tls = .ok tls) :
      ServicesStep L .fault v (v.dropSender (.returned (.error (.transport message))))
  | grpcFailed {v : Services H} (message : String) (hmain : v.main = .serving) :
      ServicesStep L .fault v (v.dropSender (.returned (.error (.transport message))))
  | grpcEnded {v : Services H} (hmain : v.main = .serving) (hsignal : v.signalled = true) :
      ServicesStep L .main v (v.dropSender .joiningHealth)
  | healthJoined {v : Services H} {failed : Bool} (hmain : v.main = .joiningHealth)
      (hended : v.auxiliary .health = .ended failed) :
      ServicesStep L .main v { v with main := .joiningMetrics }
  | metricsJoined {v : Services H} {failed : Bool} (hmain : v.main = .joiningMetrics)
      (hended : v.auxiliary .metrics = .ended failed) :
      ServicesStep L .main v { v with main := .returned (.ok ()) }
  | auxiliaryListens {v : Services H} (which : Auxiliary)
      (hstarting : v.auxiliary which = .starting) :
      ServicesStep L (.auxiliary which) v
        ((v.setAuxiliary which .listening).listen (.auxiliary which (L.auxiliaryAddr which)))
  | auxiliaryEnded {v : Services H} (which : Auxiliary)
      (hlistening : v.auxiliary which = .listening) (hdropped : v.senderAlive = false) :
      ServicesStep L (.auxiliary which) v (v.setAuxiliary which (.ended false))
  | auxiliaryFailed {v : Services H} (which : Auxiliary)
      (hgoing : ∀ failed, v.auxiliary which ≠ .ended failed) :
      ServicesStep L .fault v (v.setAuxiliary which (.ended true))
  | signal {v : Services H} (hsignal : v.signalled = false) :
      ServicesStep L .signal v { v with signalled := true }

/-- The error `start_services` may return: TLS that cannot be set up, or a gRPC server that
fails. -/
inductive Refused (L : Launch H) : StartError → Prop
  | tls {e : Error} (htls : buildTlsConfig H L.tls = .error e) : Refused L (.error e)
  | grpc {tls : Option H.Identity} (message : String) (htls : buildTlsConfig H L.tls = .ok tls) :
      Refused L (.transport message)

/-- The gRPC server went into service. -/
def MainPc.served : MainPc → Bool
  | .serving | .joiningHealth | .joiningMetrics | .returned (.ok ()) => true
  | .starting | .returned (.error _) => false

/-- The broadcast closes when the gRPC server is over and not before; until then a spawned server
ends by failing only; what is joined has ended; and `start_services` returns without an error only
behind a shutdown request and when all servers have ended. -/
structure Services.Ordered (L : Launch H) (v : Services H) : Prop where
  sender : v.senderAlive = true ↔ v.main = .starting ∨ v.main = .serving
  outlives : v.senderAlive = true → ∀ which failed, v.auxiliary which = .ended failed →
    failed = true
  joining : v.main = .joiningHealth ∨ v.main = .joiningMetrics → v.signalled = true
  joined : v.main = .joiningMetrics → ∃ failed, v.auxiliary .health = .ended failed
  returned : v.main = .returned (.ok ()) → v.signalled = true ∧
    ∀ which, ∃ failed, v.auxiliary which = .ended failed
  refused : ∀ e, v.main = .returned (.error e) → Refused L e
  served : v.main.served = true → ∃ tls, buildTlsConfig H L.tls = .ok tls
  listeners : ∀ addr tls, .grpc addr tls ∈ v.listeners →
    addr = L.addrs.grpc ∧ buildTlsConfig H L.tls = .ok tls

theorem Services.Ordered.start : (Services.start : Services H).Ordered L where
  sender := by simp [Services.start]
  outlives _ which failed h := by cases h
  joining h := by rcases h with h | h <;> cases h
  joined h := by cases h
  returned h := by cases h
  refused e h := by cases h
  served h := by cases h
  listeners addr tls h := by cases h

theorem Services.Ordered.refuse {v : Services H} (h : v.Ordered L) {e : StartError}
    (he : Refused L e) : (v.dropSender (.returned (.error e))).Ordered L where
  sender := by simp [Services.dropSender]
  outlives hs := by cases hs
  joining hm := by rcases hm with hm | hm <;> cases hm
  joined hm := by cases hm
  returned hm := by cases hm
  refused e' hm := by
    cases hm
    exact he
  served hm := by cases hm
  listeners := h.listeners

theorem mem_listen {v : Services H} {l l' : Listener H} :
    l ∈ (v.listen l').listeners ↔ l ∈ v.listeners ∨ l = l' := by
  simp [Services.listen]

@[simp] theorem setAuxiliary_self {v : Services H} {which : Auxiliary} {status : TaskStatus} :
    (v.setAuxiliary which status).auxiliary which = status := Function.update_self _ _ _

theorem setAuxiliary_of_ne {v : Services H} {which other : Auxiliary} {status : TaskStatus}
    (h : other ≠ which) : (v.setAuxiliary which status).auxiliary other = v.auxiliary other :=
  Function.update_of_ne h _ _

/-- A spawned server that had not ended goes on, or ends in a way the broadcast allows. -/
theorem Services.Ordered.setAuxiliary {v : Services H} (h : v.Ordered L) {which : Auxiliary}
    {status : TaskStatus} (hgoing : ∀ failed, v.auxiliary which ≠ .ended failed)
    (hallowed : v.senderAlive = true → ∀ failed, status = .ended failed → failed = true) :
    (v.setAuxiliary which status).Ordered L where
  sender := h.sender
  outlives hs other failed hended := by
    by_cases hother : other = which
    · subst hother
      rw [setAuxiliary_self] at hended
      exact hallowed hs failed hended
    · rw [setAuxiliary_of_ne hother] at hended
      exact h.outlives hs other failed hended
  joining := h.joining
  joined hm := by
    obtain ⟨failed, hended⟩ := h.joined hm
    have hother : Auxiliary.health ≠ which := by
      rintro rfl
      exact hgoing failed hended
    exact ⟨failed, (setAuxiliary_of_ne hother).trans hended⟩
  returned hm := by
    obtain ⟨-, hall⟩ := h.returned hm
    obtain ⟨failed, hended⟩ := hall which
    exact (hgoing failed hended).elim
  refused := h.refused
  served := h.served
  listeners := h.listeners

theorem ServicesStep.ordered {a : ServicesActor} {v w : Services H} (hstep : ServicesStep L a v w)
    (h : v.Ordered L) : w.Ordered L := by
  cases hstep with
  | tlsFailed hmain htls => exact h.refuse (.tls htls)
  | grpcNotStarted message hmain htls => exact h.refuse (.grpc message htls)
  | grpcFailed message hmain =>
    obtain ⟨tls, htls⟩ := h.served (by rw [hmain]; rfl)
    exact h.refuse (.grpc message htls)
  | @grpcListens _ tls hmain htls =>
    have hs : v.senderAlive = true := h.sender.mpr (Or.inl hmain)
    refine ⟨?_, h.outlives, ?_, ?_, ?_, ?_, fun _ => ⟨tls, htls⟩, ?_⟩
    · exact iff_of_true hs (Or.inr rfl)
    · rintro (hm | hm) <;> cases hm
    · intro hm
      cases hm
    · intro hm
      cases hm
    · intro e hm
      cases hm
    · intro addr tls' hl
      rcases mem_listen.mp hl with hl | hl
      · exact h.listeners addr tls' hl
      · cases hl
        exact ⟨rfl, htls⟩
  | grpcEnded hmain hsignal =>
    refine ⟨by simp [Services.dropSender], ?_, fun _ => hsignal, ?_, ?_, ?_, ?_, h.listeners⟩
    · intro hs
      cases hs
    · intro hm
      cases hm
    · intro hm
      cases hm
    · intro e hm
      cases hm
    · intro _
      exact h.served (by rw [hmain]; rfl)
  | @healthJoined _ failed hmain hended =>
    have hs : v.senderAlive ≠ true := by
      intro hs
      rcases h.sender.mp hs with hm | hm <;> rw [hmain] at hm <;> cases hm
    refine ⟨?_, h.outlives, fun _ => h.joining (Or.inl hmain), fun _ => ⟨failed, hended⟩,
      ?_, ?_, ?_, h.listeners⟩
    · exact iff_of_false hs (by simp)
    · intro hm
      cases hm
    · intro e hm
      cases hm
    · intro _
      exact h.served (by rw [hmain]; rfl)
  | @metricsJoined _ failed hmain hended =>
    have hs : v.senderAlive ≠ true := by
      intro hs
      rcases h.sender.mp hs with hm | hm <;> rw [hmain] at hm <;> cases hm
    refine ⟨iff_of_false hs (by simp), h.outlives, ?_, ?_, ?_, ?_, ?_, h.listeners⟩
    · rintro (hm | hm) <;> cases hm
    · intro hm
      cases hm
    · intro _
      refine ⟨h.joining (Or.inr hmain), ?_⟩
      intro which
      cases which with
      | health => exact h.joined hmain
      | metrics => exact ⟨failed, hended⟩
    · intro e hm
      cases hm
    · intro _
      exact h.served (by rw [hmain]; rfl)
  | auxiliaryListens which hstarting =>
    have hset : (v.setAuxiliary which .listening).Ordered L := by
      refine h.setAuxiliary ?_ ?_
      · intro failed hended
        rw [hstarting] at hended
        cases hended
      · intro _ failed hended
        cases hended
    refine ⟨hset.sender, hset.outlives, hset.joining, hset.joined, hset.returned, hset.refused,
      hset.served, ?_⟩
    intro addr tls hl
    rcases mem_listen.mp hl with hl | hl
    · exact h.listeners addr tls hl
    · cases hl
  | auxiliaryEnded which hlistening hdropped =>
    refine h.setAuxiliary ?_ ?_
    · intro failed hended
      rw [hlistening] at hended
      cases hended
    · intro hs
      rw [hdropped] at hs
      cases hs
  | auxiliaryFailed which hgoing =>
    refine h.setAuxiliary hgoing ?_
    intro _ failed hended
    cases hended
    rfl
  | signal hsignal =>
    refine ⟨h.sender, h.outlives, fun _ => rfl, h.joined, ?_, h.refused, h.served, h.listeners⟩
    intro hm
    exact ⟨rfl, (h.returned hm).2⟩

theorem reached_ordered {v : Services H} (h : Steps.Reaches (ServicesStep L) .start v) :
    v.Ordered L :=
  h.keeps (fun _ _ _ hv hstep => hstep.ordered hv) .start

/-- In every order of steps, failures included: as long as the gRPC server is not over, the health
and metrics servers end by failing only, and neither that nor anything but the gRPC server and its
TLS makes `start_services` fail; it returns without an error only behind a shutdown request, with
every server ended. -/
theorem shutdown_in_order {v : Services H} (h : Steps.Reaches (ServicesStep L) .start v) :
    (v.main = .starting ∨ v.main = .serving → ∀ which, v.auxiliary which ≠ .ended false) ∧
      (v.main = .returned (.ok ()) → v.signalled = true ∧
        ∀ which, ∃ failed, v.auxiliary which = .ended failed) ∧
      ∀ e, v.main = .returned (.error e) → Refused L e := by
  have hordered := reached_ordered h
  refine ⟨?_, hordered.returned, hordered.refused⟩
  intro hmain which hended
  cases hordered.outlives (hordered.sender.mpr hmain) which false hended

section Stopping

/-- The services that start, are asked to stop, and stop. -/
theorem provided_stops : ∃ v, Steps.Reaches (ServicesStep providedLaunch) .start v ∧
    v.main = .returned (.ok ()) ∧ v.signalled = true := by
  have hstart : Steps.Reaches (ServicesStep providedLaunch) .start _ := Relation.ReflTransGen.refl
  have hserving := hstart.next (.grpcListens rfl rfl)
  have hhealth := hserving.next (.auxiliaryListens .health rfl)
  have hmetrics := hhealth.next (.auxiliaryListens .metrics rfl)
  have hsignal := hmetrics.next (.signal rfl)
  have hdropped := hsignal.next (.grpcEnded rfl rfl)
  have hhealthEnded := hdropped.next (.auxiliaryEnded .health rfl rfl)
  have hmetricsEnded := hhealthEnded.next (.auxiliaryEnded .metrics rfl rfl)
  have hjoined := hmetricsEnded.next (.healthJoined rfl rfl)
  have hreturned := hjoined.next (.metricsJoined rfl rfl)
  exact ⟨_, hreturned, rfl, ((shutdown_in_order hreturned).2.1 rfl).1⟩

end Stopping

def MainPc.rank : MainPc → Nat
  | .starting => 4
  | .serving => 3
  | .joiningHealth => 2
  | .joiningMetrics => 1
  | .returned _ => 0

def TaskStatus.rank : TaskStatus → Nat
  | .starting => 2
  | .listening => 1
  | .ended _ => 0

/-- A bound on the steps the services still take. -/
def Services.rank (v : Services H) : Nat :=
  v.main.rank + (v.auxiliary .health).rank + (v.auxiliary .metrics).rank + (!v.signalled).toNat

theorem rank_setAuxiliary {v : Services H} {which : Auxiliary} {status : TaskStatus}
    (h : status.rank < (v.auxiliary which).rank) :
    (v.setAuxiliary which status).rank < v.rank := by
  cases which with
  | health =>
    have hother : (v.setAuxiliary .health status).auxiliary .metrics = v.auxiliary .metrics :=
      setAuxiliary_of_ne (by simp)
    simp only [Services.rank, setAuxiliary_self, hother]
    simp only [Services.setAuxiliary]
    omega
  | metrics =>
    have hother : (v.setAuxiliary .metrics status).auxiliary .health = v.auxiliary .health :=
      setAuxiliary_of_ne (by simp)
    simp only [Services.rank, setAuxiliary_self, hother]
    simp only [Services.setAuxiliary]
    omega

theorem ServicesStep.rank_lt {a : ServicesActor} {v w : Services H}
    (hstep : ServicesStep L a v w) : w.rank < v.rank := by
  cases hstep with
  | tlsFailed hmain htls | grpcNotStarted message hmain htls | grpcFailed message hmain
  | grpcEnded hmain hsignal =>
    simp only [Services.rank, Services.dropSender, hmain, MainPc.rank]
    omega
  | grpcListens hmain htls =>
    simp only [Services.rank, Services.listen, hmain, MainPc.rank]
    omega
  | healthJoined hmain hended | metricsJoined hmain hended =>
    simp only [Services.rank, hmain, MainPc.rank]
    omega
  | auxiliaryListens which hstarting =>
    refine rank_setAuxiliary (v := v) ?_
    rw [hstarting]
    exact Nat.lt_succ_self 1
  | auxiliaryEnded which hlistening hdropped =>
    refine rank_setAuxiliary ?_
    rw [hlistening]
    exact Nat.lt_succ_self 0
  | auxiliaryFailed which hgoing =>
    refine rank_setAuxiliary ?_
    cases hstatus : v.auxiliary which with
    | starting => exact Nat.succ_pos 1
    | listening => exact Nat.succ_pos 0
    | ended failed => exact (hgoing failed hstatus).elim
  | signal hsignal =>
    simp only [Services.rank, hsignal, Bool.not_false, Bool.not_true, Bool.toNat_true,
      Bool.toNat_false]
    omega

/-- A spawned server that nothing makes go on has ended, once the broadcast is closed. -/
theorem ended_of_stuck {v : Services H} {which : Auxiliary}
    (hstuck : ∀ w, ¬ ServicesStep L (.auxiliary which) v w) (hdropped : v.senderAlive = false) :
    ∃ failed, v.auxiliary which = .ended failed := by
  cases hstatus : v.auxiliary which with
  | starting => exact (hstuck _ (.auxiliaryListens which hstatus)).elim
  | listening => exact (hstuck _ (.auxiliaryEnded which hstatus hdropped)).elim
  | ended failed => exact ⟨failed, rfl⟩

/-- The services take finitely many steps in all. Where nothing but a failure can happen any more
behind a shutdown request, `start_services` has returned; without one it has not returned unless
TLS could not be set up or the gRPC server failed, and it serves. -/
theorem shutdown_completes :
    (WellFounded fun w v : Services H => Steps.Any (ServicesStep L) v w) ∧
      ∀ v : Services H, Steps.Reaches (ServicesStep L) .start v →
        (∀ a w, a ≠ .fault → a ≠ .signal → ¬ ServicesStep L a v w) →
          (v.signalled = true → ∃ result, v.main = .returned result) ∧
            (v.signalled = false →
              v.main = .serving ∨ ∃ e, v.main = .returned (.error e) ∧ Refused L e) := by
  refine ⟨Steps.wellFounded_of_rank fun a v w hstep => hstep.rank_lt, ?_⟩
  intro v h hstuck
  have hordered := reached_ordered h
  have hmainStuck : ∀ w, ¬ ServicesStep L .main v w := fun w => hstuck .main w (by simp) (by simp)
  have hended : v.senderAlive = false → ∀ which, ∃ failed, v.auxiliary which = .ended failed :=
    fun hdropped which =>
      ended_of_stuck (fun w => hstuck (.auxiliary which) w (by simp) (by simp)) hdropped
  have hdropped : v.main ≠ .starting → v.main ≠ .serving → v.senderAlive = false := by
    intro hstarting hserving
    cases hs : v.senderAlive with
    | false => rfl
    | true => exact ((hordered.sender.mp hs).elim hstarting hserving).elim
  cases hmain : v.main with
  | starting =>
    cases htls : buildTlsConfig H L.tls with
    | error e => exact (hmainStuck _ (.tlsFailed hmain htls)).elim
    | ok tls => exact (hmainStuck _ (.grpcListens hmain htls)).elim
  | serving =>
    constructor
    · intro hsignal
      exact (hmainStuck _ (.grpcEnded hmain hsignal)).elim
    · intro _
      exact Or.inl rfl
  | joiningHealth =>
    have hclosed := hdropped (by simp [hmain]) (by simp [hmain])
    obtain ⟨failed, hhealth⟩ := hended hclosed .health
    exact (hmainStuck _ (.healthJoined hmain hhealth)).elim
  | joiningMetrics =>
    have hclosed := hdropped (by simp [hmain]) (by simp [hmain])
    obtain ⟨failed, hmetrics⟩ := hended hclosed .metrics
    exact (hmainStuck _ (.metricsJoined hmain hmetrics)).elim
  | returned result =>
    refine ⟨fun _ => ⟨result, rfl⟩, ?_⟩
    intro hsignal
    cases result with
    | ok u =>
      have hreturned := (hordered.returned hmain).1
      rw [hsignal] at hreturned
      cases hreturned
    | error e => exact Or.inr ⟨e, rfl, hordered.refused e hmain⟩

/-- What the services are started with comes from the configuration and the command line. -/
theorem launch_of_run {cli : Cli} {cfg : ServedConfig P} (hload : loadConfig H cli.config = .ok cfg)
    (hrun : run H cli = .ok (some L)) : L.tls = cfg.server.tls ∧
      H.parseSocketAddr (cli.grpcAddress.getD cfg.server.grpcAddress) = .ok L.addrs.grpc := by
  rw [run] at hrun
  obtain ⟨cfg', hcfg, hrun⟩ := bind_eq_ok hrun
  obtain ⟨pipeline, -, hrun⟩ := bind_eq_ok hrun
  obtain rfl := Except.ok.inj (hload.symm.trans (mapError_eq_ok hcfg))
  split at hrun
  · cases hrun
  · obtain ⟨addrs, haddrs, hrun⟩ := bind_eq_ok hrun
    rw [resolveAddresses] at haddrs
    obtain ⟨grpc, hgrpc, haddrs⟩ := bind_eq_ok haddrs
    obtain ⟨health, -, haddrs⟩ := bind_eq_ok haddrs
    obtain ⟨metrics, -, haddrs⟩ := bind_eq_ok haddrs
    cases haddrs
    cases hrun
    exact ⟨rfl, mapError_eq_ok hgrpc⟩

/-- A configuration that asks for TLS never leads to a plaintext listener, in any order of steps:
the gRPC server listens where the command line or else the configuration says, with the identity
the configuration names, or it does not listen at all and the reason is what startup returns. -/
theorem tls_never_dropped {cli : Cli} {cfg : ServedConfig P}
    (hload : loadConfig H cli.config = .ok cfg) (hrun : run H cli = .ok (some L)) {v : Services H}
    (h : Steps.Reaches (ServicesStep L) .start v) :
    (∀ addr tls, .grpc addr tls ∈ v.listeners → Configured H cfg.server.tls tls ∧
        H.parseSocketAddr (cli.grpcAddress.getD cfg.server.grpcAddress) = .ok addr) ∧
      ∀ e, buildTlsConfig H cfg.server.tls = .error e →
        (∀ addr tls, .grpc addr tls ∉ v.listeners) ∧
          ∀ result, v.main = .returned result → result = .error (.error e) := by
  obtain ⟨htls, haddr⟩ := launch_of_run hload hrun
  have hordered := reached_ordered h
  rw [← htls]
  constructor
  · intro addr tls hl
    obtain ⟨rfl, hbuild⟩ := hordered.listeners addr tls hl
    exact ⟨configured_of_build hbuild, haddr⟩
  · intro e he
    constructor
    · intro addr tls hl
      have hbuild := (hordered.listeners addr tls hl).2
      rw [he] at hbuild
      cases hbuild
    · intro result hmain
      cases result with
      | ok u =>
        obtain ⟨tls, hbuild⟩ := hordered.served (by rw [hmain]; rfl)
        rw [he] at hbuild
        cases hbuild
      | error e' =>
        cases hordered.refused e' hmain with
        | tls hbuild =>
          rw [he] at hbuild
          cases hbuild
          rfl
        | grpc message hbuild =>
          rw [he] at hbuild
          cases hbuild

section Listening

theorem provided_listens : ∃ v, Steps.Reaches (ServicesStep providedLaunch) .start v ∧
    v.listeners = [.grpc "0.0.0.0:50051" (some (([1], [2]) : Utf8.Bytes × Utf8.Bytes))] ∧
      Configured providedHost providedTls
        (some (([1], [2]) : Utf8.Bytes × Utf8.Bytes)) := by
  have hrun : run providedHost {} = .ok (some providedLaunch) := rfl
  have hstart : Steps.Reaches (ServicesStep providedLaunch) .start _ := Relation.ReflTransGen.refl
  have hserving := hstart.next (.grpcListens rfl rfl)
  exact ⟨_, hserving, rfl, ((tls_never_dropped rfl hrun hserving).1 _ _ List.mem_cons_self).1⟩

end Listening

end ExtProc
