import PerWorker.Proofs.Pipeline.Serving
import PerWorker.Proofs.Pipeline.Tally

/-!
A call that processes a bundle. Main statement: it goes on, step by step, to the answer that the
bundle has coming, and leaves the copy of its worker registered, or torn down if the bundle failed.
-/
namespace PerWorker.Pipeline

open PerWorker.System (Keeps Touches Spares resume)

section

variable (p : Enricher) (b : Bundle) (s : System Enricher Nat) (t m : Nat) (w : WorkerId)

inductive Processing : List (Frame Enricher Nat) → Stake → Prop
  | get {point : GetPoint Enricher} {standing left : Nat}
      (getting : Getting p s t m w point standing left) :
      Processing [.get m w point,.processGet m w] ⟨standing,standing,left + 15⟩
  | claim {i c : Nat} (rests : Rests p s m w i c) :
      Processing [.processBody m w (.claim c)] ⟨1,1,15⟩
  | running {i c : Nat} (seat : Seat s m w i (.live c) none)
      (owned : Owned s w c (some t) p.Serves) : Processing [.processBody m w (.running c)] ⟨1,1,14⟩
  | yield {i c : Nat} (seat : Seat s m w i (.live c) none)
      (owned : Owned s w c (some t) p.Serves) :
      Processing [.processBody m w (.yield c (b.verdict p))] ⟨1,1,13⟩
  | logFailure {i c : Nat} {fault : Fault} (said : b.verdict p = .error fault)
      (rests : Rests p s m w i c) : Processing [.processLogFailure m w c fault] ⟨1,1,12⟩
  | release {point : ReleasePoint} {standing left : Nat} {fault : Fault}
      (said : b.verdict p = .error fault) (releasing : Releasing p s t m w point standing left) :
      Processing [.release m w point,.processRelease m w fault] ⟨1,standing,left + 1⟩

inductive Served : Reply Nat → Stake → Prop
  | kept {i c bytes : Nat} (said : b.verdict p = .ok bytes) (rests : Rests p s m w i c) :
      Served (.value bytes) ⟨1,1,0⟩
  | discarded {fault : Fault} (said : b.verdict p = .error fault) (out : s.slot? m w = none) :
      Served (.fault fault) ⟨1,0,0⟩

end

variable {p : Enricher} {b : Bundle} {s next : System Enricher Nat} {stock : Stock} {t m : Nat}
  {w : WorkerId} {before : Stake} {frames : List (Frame Enricher Nat)}

theorem Processing.keeps (processing : Processing p b s t m w frames before)
    (keeps : Keeps m w s next) : Processing p b next t m w frames before := by
  cases processing with
  | get getting => exact .get (getting.keeps keeps)
  | claim rests => exact .claim (rests.keeps keeps)
  | running seat owned => exact .running (seat.keeps keeps) (owned.keeps keeps)
  | yield seat owned => exact .yield (seat.keeps keeps) (owned.keeps keeps)
  | logFailure said rests => exact .logFailure said (rests.keeps keeps)
  | release said releasing => exact .release said (releasing.keeps keeps)

theorem Served.keeps {reply : Reply Nat} (served : Served p b s m w reply before)
    (keeps : Keeps m w s next) : Served p b next m w reply before := by
  cases served with
  | kept said rests => exact .kept said (rests.keeps keeps)
  | discarded said out => exact .discarded said (keeps.mapped.trans out)

theorem Took.pad {events : List (Event Nat)} {next : Stock}
    {paid standing left paid' standing' left' rest : Nat}
    (took : Took p t m w stock ⟨paid,standing,left⟩ events next ⟨paid',standing',left'⟩)
    (after : Nat) (fewer : rest ≤ left' + after) :
    Took p t m w stock ⟨paid,standing,left + after⟩ events next ⟨paid',standing',rest⟩ := by
  have less := took.left
  dsimp only at less
  refine { took with left := ?_ }
  dsimp only
  omega

theorem conclude_body {c : Nat} {below : List (Frame Enricher Nat)}
    (top : stock.system.stack t = .processBody m w (.running c) :: below) (value : Enricher)
    (result : Except Enricher.Refusal Nat) :
    ∃ ending, stock.conclude t value result = some ({ stock with
      system := (stock.system.mapCopy c ({ · with value })).setStack t
        (.processBody m w (.yield c (result.mapError (·.fault))) :: below) },
        [.hookEnded .body c ending]) := by
  have top' : (stock.system.mapCopy c ({ · with value })).stack t =
    .processBody m w (.running c) :: below := top
  cases result with
  | ok bytes =>
    refine ⟨.returned,conclude_eq top rfl ?_⟩
    simp only [System.finish,top',Except.mapError,System.goto]
  | error refusal =>
    refine ⟨.failed,conclude_eq top rfl ?_⟩
    simp only [System.finish,top',Except.mapError,System.goto]

inductive Serves (p : Enricher) (b : Bundle) (t m : Nat) (w : WorkerId)
    (events : List (Event Nat)) (next : System Enricher Nat) (after : Stake) : Prop
  | on (processing : Processing p b next t m w (next.stack t) after)
      (silent : Stock.reply? events = none)
  | done {reply : Reply Nat} (quiet : next.stack t = [])
      (answered : Stock.reply? events = some reply) (served : Served p b next m w reply after)

def ServesOn (p : Enricher) (b : Bundle) (t m : Nat) (w : WorkerId) (stock : Stock)
    (before : Stake) : Prop :=
  ∃ next events after, stock.step t b.body = some (next,events) ∧
    Took p t m w stock before events next after ∧ Serves p b t m w events next.system after

section

variable {shared : System Enricher Nat} {events : List (Event Nat)} {i c left : Nat}
  (yields : stock.template.Yields p)

include yields

theorem ServesOn.goes {left' : Nat} (room : t < stock.system.threads.size)
    (stepped : stock.step t b.body = some ({ stock with
      system := shared.setStack t frames },events))
    (silent : Stock.reply? events = none) (calm : Calm events)
    (touches : Touches m w stock.system shared 0 0 0)
    (processing : Processing p b shared t m w frames ⟨1,1,left'⟩) (fewer : left' < left) :
    ServesOn p b t m w stock ⟨1,1,left⟩ := by
  have top : (shared.setStack t frames).stack t = frames :=
    System.stack_setStack _ _ (touches.threads ▸ room)
  have kept := processing.keeps (.setStack m t w shared frames)
  refine ⟨_,_,⟨1,1,left'⟩,stepped,took_of_touches touches yields calm rfl rfl fewer,.on ?_ silent⟩
  rwa [top]

theorem ServesOn.claim (rests : Rests p stock.system m w i c)
    (top : stock.system.stack t = [.processBody m w (.claim c)]) :
    ServesOn p b t m w stock ⟨1,1,15⟩ := by
  have advanced : stock.system.advance t =
      some ((stock.system.mapCopy c ({ · with holder := some t })).setStack t
        [.processBody m w (.running c)],[.hookStarted .body c]) := by
    simp only [System.advance,top,rests.owned.claim,Option.map_some,System.goto]
  exact .goes yields (System.bound_of_stack _ _ _ _ top) (step_of_advance _ top rfl advanced) rfl
    (by simp [Calm]) (rests.owned.touches _) (.running ⟨rests.seat.mapped,rests.seat.cell⟩
      (rests.owned.mapCopy (fun _ => rfl) (fun _ _ => rfl) fun _ worn => worn)) (by decide)

/-- The body says of its bundle what the prototype would say. -/
theorem ServesOn.running (seat : Seat stock.system m w i (.live c) none)
    (owned : Owned stock.system w c (some t) p.Serves)
    (top : stock.system.stack t = [.processBody m w (.running c)]) :
    ServesOn p b t m w stock ⟨1,1,14⟩ := by
  obtain ⟨copy,there,_,_,worn⟩ := id owned
  obtain ⟨value,ran,worn'⟩ := worn.processRange b.first b.count 0
  obtain ⟨ending,concluded⟩ := conclude_body top value (p.outcome b.first b.count)
  have stepped : stock.step t b.body = some ({ stock with
      system := (stock.system.mapCopy c ({ · with value })).setStack t
        [.processBody m w (.yield c (b.verdict p))] },[.hookEnded .body c ending]) := by
    simp only [Stock.step,top,Frame.hook?,there,Option.map_some,Stock.perform,Bundle.body,ran,
      concluded]
    rfl
  exact .goes yields (System.bound_of_stack _ _ _ _ top) stepped rfl
    (fun _ _ _ member => by simp_all) (owned.touches _) (.yield ⟨seat.mapped,seat.cell⟩
      (owned.mapCopy (fun _ => rfl) (fun _ held => held) fun _ _ => worn')) (by decide)

theorem ServesOn.yield (seat : Seat stock.system m w i (.live c) none)
    (owned : Owned stock.system w c (some t) p.Serves)
    (top : stock.system.stack t = [.processBody m w (.yield c (b.verdict p))]) :
    ServesOn p b t m w stock ⟨1,1,13⟩ := by
  have room := System.bound_of_stack _ _ _ _ top
  have rests : Rests p (stock.system.yieldCopy c) m w i c :=
    ⟨⟨seat.mapped,seat.cell⟩,
      owned.mapCopy (fun _ => rfl) (fun _ _ => rfl) fun _ worn => worn⟩
  have touches : Touches m w stock.system (stock.system.yieldCopy c) 0 0 0 := owned.touches _
  cases said : b.verdict p with
  | ok bytes =>
    rw [said] at top
    have advanced : stock.system.advance t = some ((stock.system.yieldCopy c).setStack t [],
        [.returned (.value bytes)]) := by
      simp only [System.advance,top,System.answer]
      rfl
    refine ⟨_,_,⟨1,1,0⟩,step_of_advance _ top rfl advanced,
      took_of_touches touches yields (by simp [Calm]) rfl rfl (by decide),
      .done ?_ rfl (.kept said (rests.keeps (.setStack ..)))⟩
    exact System.stack_setStack _ _ room
  | error fault =>
    rw [said] at top
    have advanced : stock.system.advance t = some ((stock.system.yieldCopy c).setStack t
        [.processLogFailure m w c fault],[]) := by
      simp only [System.advance,top,System.goto]
    exact .goes yields room (step_of_advance _ top rfl advanced) rfl (by simp [Calm]) touches
      (.logFailure said rests) (by decide)

theorem ServesOn.logFailure {fault : Fault} (said : b.verdict p = .error fault)
    (rests : Rests p stock.system m w i c)
    (top : stock.system.stack t = [.processLogFailure m w c fault]) :
    ServesOn p b t m w stock ⟨1,1,12⟩ := by
  have advanced : stock.system.advance t = some (stock.system.setStack t
      [.release m w .unregister,.processRelease m w fault],
        [.logged (.processFailed (stock.system.name m) w (c + 1) fault.message)]) := by
    simp only [System.advance,top,System.goto]
  exact .goes yields (System.bound_of_stack _ _ _ _ top) (step_of_advance _ top rfl advanced) rfl
    (by simp [Calm]) (.refl ..) (.release said (.unregister (.rests rests))) (by decide)

end

/-- A call that processes a bundle can always take a step, and each step costs what it has in
hand. -/
theorem Processing.step
    (processing : Processing p b stock.system t m w (stock.system.stack t) before)
    (closed : p.session = none) (yields : stock.template.Yields p)
    (bound : m < stock.system.managers.size) :
    ∃ next events after, stock.step t b.body = some (next,events) ∧
      Took p t m w stock before events next after ∧ Serves p b t m w events next.system after := by
  generalize top : stock.system.stack t = frames at processing
  cases processing with
  | get getting =>
    obtain ⟨next,events,stepped,gets⟩ := getting.step closed yields bound b.body top
    cases gets with
    | on top getting silent took =>
      exact ⟨next,events,_,stepped,took.pad 15 le_rfl,.on (top ▸ .get getting) silent⟩
    | found told answer top said rests took =>
      subst answer
      subst said
      exact ⟨next,_,_,stepped,took.pad 15 le_rfl,.on (top ▸ .claim rests) rfl⟩
  | claim rests => exact ServesOn.claim yields rests top
  | running seat owned => exact ServesOn.running yields seat owned top
  | yield seat owned => exact ServesOn.yield yields seat owned top
  | logFailure said rests => exact ServesOn.logFailure yields said rests top
  | release said releasing =>
    obtain ⟨next,events,stepped,releases⟩ := releasing.step yields bound b.body top
    cases releases with
    | on top releasing less silent took =>
      exact ⟨next,events,_,stepped,(took 1).pad 1 le_rfl,.on (top ▸ .release said releasing) silent⟩
    | done told top said' silent out took =>
      subst said'
      exact ⟨next,_,⟨1,0,0⟩,stepped,(took 1).pad 1 (Nat.zero_le _),
        .done top (reply?_append silent) (.discarded said out)⟩

end PerWorker.Pipeline
