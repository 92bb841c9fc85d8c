import PerWorker.Pipeline.Run
import PerWorker.Proofs.Enricher.Copies
import PerWorker.Proofs.Enricher.Verdicts
import PerWorker.Proofs.Lifecycle.Reach

/-!
One thread at work on the copy of a worker. Where no other thread works for the same worker, each
call has one next step, whatever the other threads do meanwhile. Main statements: a `get` goes on,
step by step, until it has found a copy that is set up, and a `release` until the worker is not
registered; their hooks return, and what they count agrees with what they leave behind.
-/
namespace PerWorker.Pipeline

open PerWorker.System (Keeps Touches Spares resume nextRelease)

section

variable (p : Enricher) (s : System Enricher Nat) (t m : Nat) (w : WorkerId)

structure Seat (i : Nat) (state : SlotState) (holder : Option Nat) : Prop where
  mapped : s.slot? m w = some i
  cell : s.slots[i]? = some ⟨m,w,state,holder⟩

def Owned (c : Nat) (holder : Option Nat) (wears : Enricher → Prop) : Prop :=
  ∃ copy, s.copies[c]? = some copy ∧ copy.worker = w ∧ copy.holder = holder ∧ wears copy.value

structure Rests (i c : Nat) : Prop where
  seat : Seat s m w i (.live c) none
  owned : Owned s w c none p.Serves

/-- Between two calls: the number is that of the copies that are set up. -/
inductive Stands : Nat → Prop
  | rests {i c : Nat} (rests : Rests p s m w i c) : Stands 1
  | out (out : s.slot? m w = none) : Stands 0

/-- Where a `get` stands, whether the worker's copy counts as set up, and how many steps are left at
most. -/
inductive Getting : GetPoint Enricher → Nat → Nat → Prop
  | look {standing : Nat} (stands : Stands p s m w standing) : Getting .look standing 22
  | register (out : s.slot? m w = none) : Getting .register 0 21
  | meet {i c : Nat} (rests : Rests p s m w i c) : Getting (.enter i) 1 9
  | enter {i : Nat} (seat : Seat s m w i .vacant none) : Getting (.enter i) 0 9
  | replicating {i : Nat} (seat : Seat s m w i .vacant (some t)) : Getting (.replicating i) 0 8
  | countCopy {i : Nat} (seat : Seat s m w i .vacant (some t)) : Getting (.countCopy i p) 0 7
  | number {i : Nat} (seat : Seat s m w i .vacant (some t)) : Getting (.number i p) 0 6
  | settingUp {i c : Nat} (seat : Seat s m w i .vacant (some t))
      (owned : Owned s w c none (· = p)) : Getting (.settingUp i c) 0 5
  | countSetup {i c : Nat} (seat : Seat s m w i .vacant (some t))
      (owned : Owned s w c none p.Serves) : Getting (.countSetup i c) 0 4
  | logSetup {i c : Nat} (seat : Seat s m w i .vacant (some t))
      (owned : Owned s w c none p.Serves) : Getting (.logSetup i c) 1 3
  | publish {i c : Nat} (seat : Seat s m w i .vacant (some t))
      (owned : Owned s w c none p.Serves) : Getting (.publish i c) 1 2
  | leave {i c : Nat} (seat : Seat s m w i (.live c) (some t))
      (owned : Owned s w c none p.Serves) : Getting (.leave i (.found c)) 1 1

inductive Releasing : ReleasePoint → Nat → Nat → Prop
  | unregister {standing : Nat} (stands : Stands p s m w standing) :
      Releasing .unregister standing 10
  | enter {i c : Nat} (out : s.slot? m w = none) (cell : s.slots[i]? = some ⟨m,w,.live c,none⟩)
      (owned : Owned s w c none p.Serves) : Releasing (.enter i) 1 9
  | retire {i c : Nat} (out : s.slot? m w = none) (cell : s.slots[i]? = some ⟨m,w,.live c,some t⟩)
      (owned : Owned s w c none p.Serves) : Releasing (.retire i) 1 8
  | leave {i c : Nat} (out : s.slot? m w = none) (cell : s.slots[i]? = some ⟨m,w,.retired,some t⟩)
      (owned : Owned s w c none p.Serves) : Releasing (.leave i (some c)) 1 7
  | kill {c : Nat} (out : s.slot? m w = none) (owned : Owned s w c none p.Serves) :
      Releasing (.kill c) 1 6
  | claim {c : Nat} (out : s.slot? m w = none) (owned : Owned s w c none p.Serves) :
      Releasing (.claim c) 1 5
  | tearingDown {c : Nat} (out : s.slot? m w = none) (owned : Owned s w c (some t) p.Serves) :
      Releasing (.tearingDown c) 1 4
  | yield {c : Nat} (out : s.slot? m w = none) (owned : Owned s w c (some t) fun _ => True) :
      Releasing (.yield c none) 1 3
  | countTeardown (c : Nat) (out : s.slot? m w = none) : Releasing (.countTeardown c none) 1 2
  | logTeardown (c : Nat) (out : s.slot? m w = none) : Releasing (.logTeardown c) 0 1

end

variable {p : Enricher} {s shared next : System Enricher Nat} {t m i c standing left : Nat}
  {w : WorkerId} {state : SlotState} {holder : Option Nat} {wears : Enricher → Prop}

theorem Seat.keeps (seat : Seat s m w i state holder) (keeps : Keeps m w s next) :
    Seat next m w i state holder :=
  ⟨keeps.mapped.trans seat.mapped,keeps.slots _ _ seat.cell rfl⟩

theorem Owned.keeps (owned : Owned s w c holder wears) (keeps : Keeps m w s next) :
    Owned next w c holder wears := by
  obtain ⟨copy,there,own,rest⟩ := owned
  exact ⟨copy,keeps.copies _ _ there own,own,rest⟩

theorem Rests.keeps (rests : Rests p s m w i c) (keeps : Keeps m w s next) :
    Rests p next m w i c :=
  ⟨rests.seat.keeps keeps,rests.owned.keeps keeps⟩

theorem Stands.keeps (stands : Stands p s m w standing) (keeps : Keeps m w s next) :
    Stands p next m w standing := by
  cases stands with
  | rests rests => exact .rests (rests.keeps keeps)
  | out out => exact .out (keeps.mapped.trans out)

theorem Stands.eq_zero (stands : Stands p s m w standing) (out : s.slot? m w = none) :
    standing = 0 := by
  cases stands with
  | rests rests => cases rests.seat.mapped.symm.trans out
  | out => rfl

/-- Where a `get` stands is none of the other workers' business. -/
theorem Getting.keeps {point : GetPoint Enricher} (getting : Getting p s t m w point standing left)
    (keeps : Keeps m w s next) : Getting p next t m w point standing left := by
  cases getting with
  | look stands => exact .look (stands.keeps keeps)
  | register out => exact .register (keeps.mapped.trans out)
  | meet rests => exact .meet (rests.keeps keeps)
  | enter seat => exact .enter (seat.keeps keeps)
  | replicating seat => exact .replicating (seat.keeps keeps)
  | countCopy seat => exact .countCopy (seat.keeps keeps)
  | number seat => exact .number (seat.keeps keeps)
  | settingUp seat owned => exact .settingUp (seat.keeps keeps) (owned.keeps keeps)
  | countSetup seat owned => exact .countSetup (seat.keeps keeps) (owned.keeps keeps)
  | logSetup seat owned => exact .logSetup (seat.keeps keeps) (owned.keeps keeps)
  | publish seat owned => exact .publish (seat.keeps keeps) (owned.keeps keeps)
  | leave seat owned => exact .leave (seat.keeps keeps) (owned.keeps keeps)

theorem Releasing.keeps {point : ReleasePoint}
    (releasing : Releasing p s t m w point standing left) (keeps : Keeps m w s next) :
    Releasing p next t m w point standing left := by
  have out (out : s.slot? m w = none) : next.slot? m w = none := keeps.mapped.trans out
  cases releasing with
  | unregister stands => exact .unregister (stands.keeps keeps)
  | enter gone cell owned => exact .enter (out gone) (keeps.slots _ _ cell rfl) (owned.keeps keeps)
  | retire gone cell owned =>
    exact .retire (out gone) (keeps.slots _ _ cell rfl) (owned.keeps keeps)
  | leave gone cell owned => exact .leave (out gone) (keeps.slots _ _ cell rfl) (owned.keeps keeps)
  | kill gone owned => exact .kill (out gone) (owned.keeps keeps)
  | claim gone owned => exact .claim (out gone) (owned.keeps keeps)
  | tearingDown gone owned => exact .tearingDown (out gone) (owned.keeps keeps)
  | yield gone owned => exact .yield (out gone) (owned.keeps keeps)
  | countTeardown c gone => exact .countTeardown c (out gone)
  | logTeardown c gone => exact .logTeardown c (out gone)

/-- What a thread has in hand: whether the bundle it works on has been paid for with a setup,
whether a copy stands, and how many steps are left at most. -/
structure Stake where
  paid : Nat
  standing : Nat
  left : Nat

def Calm (events : List (Event Nat)) : Prop :=
  ∀ hook c ending, .hookEnded hook c ending ∈ events → hook = .body ∨ ending = .returned

/-- What a thread that works for a worker does to a stock in one step, and to its own stake. A new
registration costs the steps that it takes to release the worker again. -/
structure Took (p : Enricher) (t m : Nat) (w : WorkerId) (stock : Stock) (before : Stake)
    (events : List (Event Nat)) (next : Stock) (after : Stake) : Prop where
  spares : Spares m t w stock.system next.system
  yields : next.template.Yields p
  manager : next.manager = stock.manager
  calm : Calm events
  paid : (next.system.counters m).setups + before.paid =
    (stock.system.counters m).setups + after.paid
  standing : (next.system.counters m).setups + (stock.system.counters m).teardowns +
    before.standing = (stock.system.counters m).setups + (next.system.counters m).teardowns +
      after.standing
  left : after.left + 11 * next.system.registrations m <
    before.left + 11 * stock.system.registrations m

theorem took_of_touches {stock : Stock} {template : Template Enricher} {made gone grown : Nat}
    {before after : Stake} {events : List (Event Nat)} {frames : List (Frame Enricher Nat)}
    (touches : Touches m w stock.system shared made gone grown) (yields : template.Yields p)
    (calm : Calm events) (paid : after.paid = before.paid + made)
    (standing : after.standing + gone = before.standing + made)
    (left : after.left + 11 * grown < before.left) :
    Took p t m w stock before events
      { stock with system := shared.setStack t frames, template } after := by
  have setups : ((shared.setStack t frames).counters m).setups = _ := touches.setups
  have teardowns : ((shared.setStack t frames).counters m).teardowns = _ := touches.teardowns
  have registrations : (shared.setStack t frames).registrations m ≤ _ := touches.registrations
  refine ⟨touches.spares t frames,yields,rfl,calm,?_,?_,?_⟩ <;> dsimp only <;> omega

theorem calm_resume (reply : Reply Nat) (below : List (Frame Enricher Nat)) :
    Calm (resume reply below).2 := by
  intro hook c ending
  fun_induction resume reply below with
  | case7 m pending errors below e ih =>
    cases nextRelease m pending (errors ++ [e]) below <;> simp_all
  | case8 reply m pending errors below _ _ ih =>
    cases nextRelease m pending errors below <;> simp_all
  | _ => simp_all

theorem calm_returned (hook : Hook) (c : Nat) : Calm [.hookEnded hook c .returned] := by
  intro _ _ ending member
  cases List.mem_singleton.mp member
  exact Or.inr rfl

variable {stock : Stock} {body : Body} {frame : Frame Enricher Nat}
  {below frames : List (Frame Enricher Nat)} {events : List (Event Nat)}

theorem step_of_advance (body : Body) (top : stock.system.stack t = frame :: below)
    (own : frame.isForeign = false) (advanced : stock.system.advance t = some (next,events)) :
    stock.step t body = some ({ stock with system := next },events) := by
  obtain ⟨drawing,hook⟩ : frame.isDrawing = false ∧ frame.hook? = none := by
    simpa [Frame.isForeign] using own
  simp [Stock.step,top,hook,drawing,Stock.act,System.step,advanced]

theorem conclude_eq {hook : Hook} {value : Enricher} {result : Except Enricher.Refusal Nat}
    (top : stock.system.stack t = frame :: below) (runs : frame.hook? = some (hook,c))
    (finished : (stock.system.mapCopy c ({ · with value })).finish t
      (result.mapError (·.fault)) = some (next,events)) :
    stock.conclude t value result = some ({ stock with system := next },events) := by
  simp [Stock.conclude,System.step,top,runs,Stock.act,finished]

theorem Owned.claim (owned : Owned s w c none wears) (t : Nat) :
    s.claimCopy? c t = some (s.mapCopy c ({ · with holder := some t })) := by
  obtain ⟨copy,there,_,free,_⟩ := owned
  simp [System.claimCopy?,there,free]

theorem Owned.touches (owned : Owned s w c holder wears)
    (f : Copy Enricher → Copy Enricher) : Touches m w s (s.mapCopy c f) 0 0 0 := by
  obtain ⟨copy,there,own,_⟩ := owned
  exact .mapCopy f there own

theorem Owned.mapCopy {holder' : Option Nat} {wears' : Enricher → Prop}
    {f : Copy Enricher → Copy Enricher} (owned : Owned s w c holder wears)
    (worker : ∀ copy, (f copy).worker = copy.worker)
    (locked : ∀ copy, copy.holder = holder → (f copy).holder = holder')
    (worn : ∀ copy, wears copy.value → wears' (f copy).value) :
    Owned (s.mapCopy c f) w c holder' wears' := by
  obtain ⟨copy,there,own,held,worn'⟩ := owned
  exact ⟨f copy,System.getElem?_mapCopy f there,(worker copy).trans own,locked copy held,
    worn copy worn'⟩

theorem Seat.mapSlot {state' : SlotState} {holder' : Option Nat} {f : Slot → Slot}
    (seat : Seat s m w i state holder) (changed : f ⟨m,w,state,holder⟩ = ⟨m,w,state',holder'⟩) :
    Seat (s.mapSlot i f) m w i state' holder' := by
  refine ⟨seat.mapped,?_⟩
  simp [System.mapSlot,Array.getElem?_modify,seat.cell,changed]

theorem Seat.bump (seat : Seat s m w i state holder) (counter : Counter) :
    Seat (s.bump m counter) m w i state holder :=
  ⟨by rw [System.slot?_bump]; exact seat.mapped,seat.cell⟩

inductive Gets (p : Enricher) (t m : Nat) (w : WorkerId) (below : List (Frame Enricher Nat))
    (stock : Stock) (standing left : Nat) (events : List (Event Nat)) (next : Stock) : Prop
  | on {point : GetPoint Enricher} {standing' left' : Nat}
      (top : next.system.stack t = .get m w point :: below)
      (getting : Getting p next.system t m w point standing' left')
      (silent : Stock.reply? events = none)
      (took : Took p t m w stock ⟨standing,standing,left⟩ events next ⟨standing',standing',left'⟩)
  | found {i c : Nat} (told : List (Frame Enricher Nat) × List (Event Nat))
      (answer : told = resume (.handle c) below) (top : next.system.stack t = told.1)
      (said : events = told.2) (rests : Rests p next.system m w i c)
      (took : Took p t m w stock ⟨standing,standing,left⟩ events next ⟨1,1,0⟩)

def GetsOn (p : Enricher) (t m : Nat) (w : WorkerId) (below : List (Frame Enricher Nat))
    (stock : Stock) (body : Body) (standing left : Nat) : Prop :=
  ∃ next events, stock.step t body = some (next,events) ∧
    Gets p t m w below stock standing left events next

theorem GetsOn.goes {point : GetPoint Enricher} {made grown standing' left' : Nat}
    {template : Template Enricher} (room : t < stock.system.threads.size)
    (stepped : stock.step t body = some ({ stock with
      system := shared.setStack t (.get m w point :: below), template },events))
    (yields : template.Yields p) (silent : Stock.reply? events = none) (calm : Calm events)
    (touches : Touches m w stock.system shared made 0 grown)
    (getting : Getting p shared t m w point standing' left')
    (more : standing' = standing + made) (fewer : left' + 11 * grown < left) :
    GetsOn p t m w below stock body standing left := by
  refine ⟨_,_,stepped,.on ?_ (getting.keeps ?_) silent
    (took_of_touches touches yields calm more more fewer)⟩
  · exact System.stack_setStack _ _ (touches.threads ▸ room)
  · exact .setStack ..

section

variable (yields : stock.template.Yields p)

include yields

theorem GetsOn.advances {point point' : GetPoint Enricher} {made grown standing' left' : Nat}
    (top : stock.system.stack t = .get m w point :: below)
    (own : (Frame.get m w point : Frame Enricher Nat).isForeign = false)
    (advanced : stock.system.advance t =
      some (shared.setStack t (.get m w point' :: below),events))
    (silent : Stock.reply? events = none) (calm : Calm events)
    (touches : Touches m w stock.system shared made 0 grown)
    (getting : Getting p shared t m w point' standing' left')
    (more : standing' = standing + made) (fewer : left' + 11 * grown < left) :
    GetsOn p t m w below stock body standing left :=
  .goes (System.bound_of_stack _ _ _ _ top) (step_of_advance body top own advanced) yields silent
    calm touches getting more fewer

theorem GetsOn.look (stands : Stands p stock.system m w standing)
    (top : stock.system.stack t = .get m w .look :: below) :
    GetsOn p t m w below stock body standing 22 := by
  cases stands with
  | @rests i c rests =>
    have advanced : stock.system.advance t =
        some (stock.system.setStack t (.get m w (.enter i) :: below),[]) := by
      simp only [System.advance,top,System.advanceGet,rests.seat.mapped,System.goto]
    exact .advances yields top rfl advanced rfl (by simp [Calm]) (.refl ..) (.meet rests) rfl
      (by omega)
  | out out =>
    have advanced : stock.system.advance t =
        some (stock.system.setStack t (.get m w .register :: below),[]) := by
      simp only [System.advance,top,System.advanceGet,out,System.goto]
    exact .advances yields top rfl advanced rfl (by simp [Calm]) (.refl ..) (.register out) rfl
      (by omega)

/-- A new registration leads to a slot that nobody else can be at. -/
theorem GetsOn.register (bound : m < stock.system.managers.size)
    (out : stock.system.slot? m w = none)
    (top : stock.system.stack t = .get m w .register :: below) :
    GetsOn p t m w below stock body 0 21 := by
  have advanced : stock.system.advance t = some ((System.mapManager
      { stock.system with slots := stock.system.slots.push { manager := m, worker := w } } m
        (·.insert w stock.system.slots.size)).setStack t
          (.get m w (.enter stock.system.slots.size) :: below),[]) := by
    simp only [System.advance,top,System.advanceGet,out,System.goto]
  refine .advances yields top rfl advanced rfl (by simp [Calm]) (.register out) (.enter ⟨?_,?_⟩)
    rfl (by omega)
  · have inserted := System.slot?_insert stock.system m w stock.system.slots.size out
    change (stock.system.mapManager m (·.insert w stock.system.slots.size)).slot? m w = _
    rw [inserted,if_pos bound]
    simp
  · simp [System.mapManager]

theorem GetsOn.meet (rests : Rests p stock.system m w i c)
    (top : stock.system.stack t = .get m w (.enter i) :: below) :
    GetsOn p t m w below stock body 1 9 := by
  have advanced : stock.system.advance t =
      some ((stock.system.mapSlot i ({ · with holder := some t })).setStack t
        (.get m w (.leave i (.found c)) :: below),[]) := by
    simp only [System.advance,top,System.advanceGet,System.enterSlot?,rests.seat.cell,System.goto]
    rfl
  exact .advances yields top rfl advanced rfl (by simp [Calm]) (.mapSlot _ rests.seat.cell rfl)
    (.leave (rests.seat.mapSlot rfl) rests.owned) rfl (by omega)

theorem GetsOn.enter (seat : Seat stock.system m w i .vacant none)
    (top : stock.system.stack t = .get m w (.enter i) :: below) :
    GetsOn p t m w below stock body 0 9 := by
  have advanced : stock.system.advance t =
      some ((stock.system.mapSlot i ({ · with holder := some t })).setStack t
        (.get m w (.replicating i) :: below),[.drawing m]) := by
    simp only [System.advance,top,System.advanceGet,System.enterSlot?,seat.cell,System.goto]
    rfl
  exact .advances yields top rfl advanced rfl (by simp [Calm]) (.mapSlot _ seat.cell rfl)
    (.replicating (seat.mapSlot rfl)) rfl (by omega)

theorem GetsOn.replicating (seat : Seat stock.system m w i .vacant (some t))
    (top : stock.system.stack t = .get m w (.replicating i) :: below) :
    GetsOn p t m w below stock body 0 8 := by
  obtain ⟨template,drawn,yields⟩ := yields.replicate
  have stepped : stock.step t body = some ({ stock with
      system := stock.system.setStack t (.get m w (.countCopy i p) :: below), template },[]) := by
    simp [Stock.step,top,Frame.hook?,Frame.isDrawing,Stock.draw,drawn,Stock.act,System.step,
      System.draw,System.goto]
  exact .goes (System.bound_of_stack _ _ _ _ top) stepped yields rfl (by simp [Calm]) (.refl ..)
    (.countCopy seat) rfl (by omega)

theorem GetsOn.countCopy (bound : m < stock.system.managers.size)
    (seat : Seat stock.system m w i .vacant (some t))
    (top : stock.system.stack t = .get m w (.countCopy i p) :: below) :
    GetsOn p t m w below stock body 0 7 := by
  have advanced : stock.system.advance t = some ((stock.system.bump m .copies).setStack t
      (.get m w (.number i p) :: below),[]) := by
    simp only [System.advance,top,System.advanceGet,System.goto]
  exact .advances yields top rfl advanced rfl (by simp [Calm]) (.bump w .copies bound)
    (.number (seat.bump .copies)) rfl (by omega)

theorem GetsOn.number (seat : Seat stock.system m w i .vacant (some t))
    (top : stock.system.stack t = .get m w (.number i p) :: below) :
    GetsOn p t m w below stock body 0 6 := by
  have advanced : stock.system.advance t = some (System.setStack { stock.system with
      copies := stock.system.copies.push { manager := m, worker := w, value := p } } t
        (.get m w (.settingUp i stock.system.copies.size) :: below),
      [.hookStarted .setup stock.system.copies.size]) := by
    simp only [System.advance,top,System.advanceGet,System.goto]
  exact .advances yields top rfl advanced rfl (by simp [Calm]) (.number m w _ _)
    (.settingUp ⟨seat.mapped,seat.cell⟩
      ⟨{ manager := m, worker := w, value := p },by simp,rfl,rfl,rfl⟩) rfl (by omega)

/-- The copy is closed, so that its setup does not fail. -/
theorem GetsOn.settingUp (closed : p.session = none)
    (seat : Seat stock.system m w i .vacant (some t)) (owned : Owned stock.system w c none (· = p))
    (top : stock.system.stack t = .get m w (.settingUp i c) :: below) :
    GetsOn p t m w below stock body 0 5 := by
  obtain ⟨copy,there,_,_,worn⟩ := id owned
  have opened : copy.value.setup = .ok { p with session := some 0 } := by
    rw [worn,Enricher.setup,closed]
  have top' :
      (stock.system.mapCopy c ({ · with value := { p with session := some 0 } })).stack t =
      .get m w (.settingUp i c) :: below := top
  have stepped : stock.step t body = some ({ stock with
      system := (stock.system.mapCopy c ({ · with
        value := { p with session := some 0 } })).setStack t
          (.get m w (.countSetup i c) :: below) },[.hookEnded .setup c .returned]) := by
    simp only [Stock.step,top,Frame.hook?,there,Option.map_some,Stock.perform,opened]
    refine conclude_eq top rfl ?_
    simp only [System.finish,top',Except.mapError,System.goto]
  exact .goes (System.bound_of_stack _ _ _ _ top) stepped yields rfl (calm_returned .setup c)
    (owned.touches _) (.countSetup ⟨seat.mapped,seat.cell⟩
      (owned.mapCopy (fun _ => rfl) (fun _ free => free) fun _ _ => ⟨rfl,rfl,rfl⟩)) rfl (by omega)

theorem GetsOn.countSetup (bound : m < stock.system.managers.size)
    (seat : Seat stock.system m w i .vacant (some t)) (owned : Owned stock.system w c none p.Serves)
    (top : stock.system.stack t = .get m w (.countSetup i c) :: below) :
    GetsOn p t m w below stock body 0 4 := by
  have advanced : stock.system.advance t = some ((stock.system.bump m .setups).setStack t
      (.get m w (.logSetup i c) :: below),[]) := by
    simp only [System.advance,top,System.advanceGet,System.goto]
  exact .advances yields top rfl advanced rfl (by simp [Calm]) (.bump w .setups bound)
    (.logSetup (seat.bump .setups) owned) rfl (by omega)

theorem GetsOn.logSetup (seat : Seat stock.system m w i .vacant (some t))
    (owned : Owned stock.system w c none p.Serves)
    (top : stock.system.stack t = .get m w (.logSetup i c) :: below) :
    GetsOn p t m w below stock body 1 3 := by
  have advanced : stock.system.advance t = some (stock.system.setStack t
      (.get m w (.publish i c) :: below),
        [.logged (.setup (stock.system.name m) w (c + 1))]) := by
    simp only [System.advance,top,System.advanceGet,System.goto]
  exact .advances yields top rfl advanced rfl (by simp [Calm]) (.refl ..) (.publish seat owned) rfl
    (by omega)

theorem GetsOn.publish (seat : Seat stock.system m w i .vacant (some t))
    (owned : Owned stock.system w c none p.Serves)
    (top : stock.system.stack t = .get m w (.publish i c) :: below) :
    GetsOn p t m w below stock body 1 2 := by
  have advanced : stock.system.advance t =
      some ((stock.system.mapSlot i ({ · with state := .live c })).setStack t
        (.get m w (.leave i (.found c)) :: below),[]) := by
    simp only [System.advance,top,System.advanceGet,System.goto]
  exact .advances yields top rfl advanced rfl (by simp [Calm]) (.mapSlot _ seat.cell rfl)
    (.leave (seat.mapSlot rfl) owned) rfl (by omega)

theorem GetsOn.leave (seat : Seat stock.system m w i (.live c) (some t))
    (owned : Owned stock.system w c none p.Serves)
    (top : stock.system.stack t = .get m w (.leave i (.found c)) :: below) :
    GetsOn p t m w below stock body 1 1 := by
  have advanced : stock.system.advance t =
      some ((stock.system.leaveSlot i).setStack t (resume (.handle c) below).1,
        (resume (.handle c) below).2) := by
    simp only [System.advance,top,System.advanceGet,System.answer,List.nil_append]
  have touches : Touches m w stock.system (stock.system.leaveSlot i) 0 0 0 :=
    .mapSlot _ seat.cell rfl
  have rests : Rests p (stock.system.leaveSlot i) m w i c := ⟨seat.mapSlot rfl,owned⟩
  refine ⟨_,_,step_of_advance body top rfl advanced,.found _ rfl ?_ rfl (rests.keeps ?_)
    (took_of_touches touches yields (calm_resume _ _) rfl rfl (by decide))⟩
  · exact System.stack_setStack _ _ (System.bound_of_stack _ _ _ _ top)
  · exact .setStack ..

end

/-- A `get` can always take a step, and has fewer steps left after it. -/
theorem Getting.step {point : GetPoint Enricher}
    (getting : Getting p stock.system t m w point standing left) (closed : p.session = none)
    (yields : stock.template.Yields p) (bound : m < stock.system.managers.size) (body : Body)
    (top : stock.system.stack t = .get m w point :: below) :
    ∃ next events, stock.step t body = some (next,events) ∧
      Gets p t m w below stock standing left events next := by
  cases getting with
  | look stands => exact GetsOn.look yields stands top
  | register out => exact GetsOn.register yields bound out top
  | meet rests => exact GetsOn.meet yields rests top
  | enter seat => exact GetsOn.enter yields seat top
  | replicating seat => exact GetsOn.replicating yields seat top
  | countCopy seat => exact GetsOn.countCopy yields bound seat top
  | number seat => exact GetsOn.number yields seat top
  | settingUp seat owned => exact GetsOn.settingUp yields closed seat owned top
  | countSetup seat owned => exact GetsOn.countSetup yields bound seat owned top
  | logSetup seat owned => exact GetsOn.logSetup yields seat owned top
  | publish seat owned => exact GetsOn.publish yields seat owned top
  | leave seat owned => exact GetsOn.leave yields seat owned top

theorem reply?_append {told more : List (Event Nat)} (silent : Stock.reply? told = none) :
    Stock.reply? (told ++ more) = Stock.reply? more := by
  rw [Stock.reply?,List.findSome?_append]
  rw [Stock.reply?] at silent
  rw [silent]
  rfl

inductive Releases (p : Enricher) (t m : Nat) (w : WorkerId) (below : List (Frame Enricher Nat))
    (stock : Stock) (standing left : Nat) (events : List (Event Nat)) (next : Stock) : Prop
  | on {point : ReleasePoint} {standing' left' : Nat}
      (top : next.system.stack t = .release m w point :: below)
      (releasing : Releasing p next.system t m w point standing' left') (less : left' < left)
      (silent : Stock.reply? events = none)
      (took : ∀ paid, Took p t m w stock ⟨paid,standing,left⟩ events next ⟨paid,standing',left'⟩)
  | done (told : List (Event Nat)) (top : next.system.stack t = (resume .done below).1)
      (said : events = told ++ (resume .done below).2) (silent : Stock.reply? told = none)
      (out : next.system.slot? m w = none)
      (took : ∀ paid, Took p t m w stock ⟨paid,standing,left⟩ events next ⟨paid,0,0⟩)

def ReleasesOn (p : Enricher) (t m : Nat) (w : WorkerId) (below : List (Frame Enricher Nat))
    (stock : Stock) (body : Body) (standing left : Nat) : Prop :=
  ∃ next events, stock.step t body = some (next,events) ∧
    Releases p t m w below stock standing left events next

section

variable (yields : stock.template.Yields p)

include yields

theorem ReleasesOn.goes {point : ReleasePoint} {gone standing' left' : Nat}
    (room : t < stock.system.threads.size)
    (stepped : stock.step t body = some ({ stock with
      system := shared.setStack t (.release m w point :: below) },events))
    (silent : Stock.reply? events = none) (calm : Calm events)
    (touches : Touches m w stock.system shared 0 gone 0)
    (releasing : Releasing p shared t m w point standing' left')
    (fewer : standing' + gone = standing) (less : left' < left) :
    ReleasesOn p t m w below stock body standing left := by
  refine ⟨_,_,stepped,.on ?_ (releasing.keeps ?_) less silent fun paid =>
    took_of_touches touches yields calm rfl fewer less⟩
  · exact System.stack_setStack _ _ (touches.threads ▸ room)
  · exact .setStack ..

theorem ReleasesOn.advances {point point' : ReleasePoint} {gone standing' left' : Nat}
    (top : stock.system.stack t = .release m w point :: below)
    (own : (Frame.release m w point : Frame Enricher Nat).isForeign = false)
    (advanced : stock.system.advance t =
      some (shared.setStack t (.release m w point' :: below),events))
    (silent : Stock.reply? events = none) (calm : Calm events)
    (touches : Touches m w stock.system shared 0 gone 0)
    (releasing : Releasing p shared t m w point' standing' left')
    (fewer : standing' + gone = standing) (less : left' < left) :
    ReleasesOn p t m w below stock body standing left :=
  .goes yields (System.bound_of_stack _ _ _ _ top) (step_of_advance body top own advanced) silent
    calm touches releasing fewer less

theorem ReleasesOn.ends {point : ReleasePoint} {told : List (Event Nat)}
    (top : stock.system.stack t = .release m w point :: below)
    (own : (Frame.release m w point : Frame Enricher Nat).isForeign = false)
    (advanced : stock.system.advance t =
      some (stock.system.setStack t (resume .done below).1,told ++ (resume .done below).2))
    (silent : Stock.reply? told = none) (calm : Calm told) (out : stock.system.slot? m w = none)
    (last : 0 < left) : ReleasesOn p t m w below stock body 0 left := by
  refine ⟨_,_,step_of_advance body top own advanced,.done told ?_ rfl silent out fun paid =>
    took_of_touches (.refl ..) yields ?_ rfl rfl last⟩
  · exact System.stack_setStack _ _ (System.bound_of_stack _ _ _ _ top)
  · intro hook c ending member
    obtain first | second := List.mem_append.mp member
    · exact calm hook c ending first
    · exact calm_resume _ _ hook c ending second

theorem ReleasesOn.unregister (stands : Stands p stock.system m w standing)
    (top : stock.system.stack t = .release m w .unregister :: below) :
    ReleasesOn p t m w below stock body standing 10 := by
  cases stands with
  | @rests i c rests =>
    have advanced : stock.system.advance t =
        some ((stock.system.mapManager m (·.erase w)).setStack t
          (.release m w (.enter i) :: below),[]) := by
      simp only [System.advance,top,System.advanceRelease,rests.seat.mapped,System.goto]
    have out : (stock.system.mapManager m (·.erase w)).slot? m w = none := by
      rw [System.slot?_erase]
      simp
    exact .advances yields top rfl advanced rfl (by simp [Calm]) (.erase m w _)
      (.enter out rests.seat.cell rests.owned) rfl (by omega)
  | out out =>
    have advanced : stock.system.advance t =
        some (stock.system.setStack t (resume .done below).1,[] ++ (resume .done below).2) := by
      simp only [System.advance,top,System.advanceRelease,out,System.answer]
    exact .ends yields top rfl advanced rfl (by simp [Calm]) out (by decide)

theorem ReleasesOn.enter (out : stock.system.slot? m w = none)
    (cell : stock.system.slots[i]? = some ⟨m,w,.live c,none⟩)
    (owned : Owned stock.system w c none p.Serves)
    (top : stock.system.stack t = .release m w (.enter i) :: below) :
    ReleasesOn p t m w below stock body 1 9 := by
  have advanced : stock.system.advance t =
      some ((stock.system.mapSlot i ({ · with holder := some t })).setStack t
        (.release m w (.retire i) :: below),[]) := by
    simp only [System.advance,top,System.advanceRelease,System.enterSlot?,cell,System.goto]
    rfl
  exact .advances yields top rfl advanced rfl (by simp [Calm]) (.mapSlot _ cell rfl)
    (.retire out (by simp [System.mapSlot,Array.getElem?_modify,cell]) owned) rfl (by omega)

theorem ReleasesOn.retire (out : stock.system.slot? m w = none)
    (cell : stock.system.slots[i]? = some ⟨m,w,.live c,some t⟩)
    (owned : Owned stock.system w c none p.Serves)
    (top : stock.system.stack t = .release m w (.retire i) :: below) :
    ReleasesOn p t m w below stock body 1 8 := by
  have advanced : stock.system.advance t =
      some ((stock.system.mapSlot i ({ · with state := .retired })).setStack t
        (.release m w (.leave i (some c)) :: below),[]) := by
    simp only [System.advance,top,System.advanceRelease,cell,Option.map_some,System.goto]
  exact .advances yields top rfl advanced rfl (by simp [Calm]) (.mapSlot _ cell rfl)
    (.leave out (by simp [System.mapSlot,Array.getElem?_modify,cell]) owned) rfl (by omega)

theorem ReleasesOn.leave (out : stock.system.slot? m w = none)
    (cell : stock.system.slots[i]? = some ⟨m,w,.retired,some t⟩)
    (owned : Owned stock.system w c none p.Serves)
    (top : stock.system.stack t = .release m w (.leave i (some c)) :: below) :
    ReleasesOn p t m w below stock body 1 7 := by
  have advanced : stock.system.advance t = some ((stock.system.leaveSlot i).setStack t
      (.release m w (.kill c) :: below),[]) := by
    simp only [System.advance,top,System.advanceRelease,System.goto]
  exact .advances yields top rfl advanced rfl (by simp [Calm]) (.mapSlot _ cell rfl)
    (.kill out owned) rfl (by omega)

theorem ReleasesOn.kill (out : stock.system.slot? m w = none)
    (owned : Owned stock.system w c none p.Serves)
    (top : stock.system.stack t = .release m w (.kill c) :: below) :
    ReleasesOn p t m w below stock body 1 6 := by
  have advanced : stock.system.advance t =
      some ((stock.system.mapCopy c ({ · with live := false })).setStack t
        (.release m w (.claim c) :: below),[]) := by
    simp only [System.advance,top,System.advanceRelease,System.goto]
  exact .advances yields top rfl advanced rfl (by simp [Calm]) (owned.touches _)
    (.claim out (owned.mapCopy (fun _ => rfl) (fun _ free => free) fun _ worn => worn)) rfl
    (by omega)

theorem ReleasesOn.claim (out : stock.system.slot? m w = none)
    (owned : Owned stock.system w c none p.Serves)
    (top : stock.system.stack t = .release m w (.claim c) :: below) :
    ReleasesOn p t m w below stock body 1 5 := by
  have advanced : stock.system.advance t =
      some ((stock.system.mapCopy c ({ · with holder := some t })).setStack t
        (.release m w (.tearingDown c) :: below),[.hookStarted .teardown c]) := by
    simp only [System.advance,top,System.advanceRelease,owned.claim,System.goto]
  exact .advances yields top rfl advanced rfl (by simp [Calm]) (owned.touches _)
    (.tearingDown out (owned.mapCopy (fun _ => rfl) (fun _ _ => rfl) fun _ worn => worn)) rfl
    (by omega)

/-- The copy is open, so that its teardown does not fail. -/
theorem ReleasesOn.tearingDown (out : stock.system.slot? m w = none)
    (owned : Owned stock.system w c (some t) p.Serves)
    (top : stock.system.stack t = .release m w (.tearingDown c) :: below) :
    ReleasesOn p t m w below stock body 1 4 := by
  obtain ⟨copy,there,_,_,worn⟩ := id owned
  obtain ⟨processed,session⟩ := Option.isSome_iff_exists.mp worn.isOpen
  obtain ⟨value,closed⟩ : ∃ value, copy.value.teardown = .ok (processed,value) :=
    ⟨_,by rw [Enricher.teardown,session]⟩
  have top' : (stock.system.mapCopy c ({ · with value })).stack t =
    .release m w (.tearingDown c) :: below := top
  have concluded : stock.conclude t value (.ok 0) = some ({ stock with
      system := (stock.system.mapCopy c ({ · with value })).setStack t
        (.release m w (.yield c none) :: below) },[.hookEnded .teardown c .returned]) := by
    refine conclude_eq top rfl ?_
    simp only [System.finish,top',Except.mapError,System.goto]
  have stepped : stock.step t body = some ({ stock with
      system := (stock.system.mapCopy c ({ · with value })).setStack t
        (.release m w (.yield c none) :: below) },
      [.logged (.sessionClosed processed),.hookEnded .teardown c .returned]) := by
    simp only [Stock.step,top,Frame.hook?,there,Option.map_some,Stock.perform,closed,concluded]
  refine .goes yields (System.bound_of_stack _ _ _ _ top) stepped rfl ?_ (owned.touches _)
    (.yield out (owned.mapCopy (fun _ => rfl) (fun _ held => held) fun _ _ => trivial)) rfl
    (by omega)
  intro hook d ending member
  obtain told | ended := List.mem_cons.mp member
  · cases told
  · exact calm_returned _ _ hook d ending ended

theorem ReleasesOn.yield (out : stock.system.slot? m w = none)
    (owned : Owned stock.system w c (some t) fun _ => True)
    (top : stock.system.stack t = .release m w (.yield c none) :: below) :
    ReleasesOn p t m w below stock body 1 3 := by
  have advanced : stock.system.advance t = some ((stock.system.yieldCopy c).setStack t
      (.release m w (.countTeardown c none) :: below),[]) := by
    simp only [System.advance,top,System.advanceRelease,System.goto]
  exact .advances yields top rfl advanced rfl (by simp [Calm]) (owned.touches _)
    (.countTeardown c out) rfl (by omega)

theorem ReleasesOn.countTeardown (bound : m < stock.system.managers.size)
    (out : stock.system.slot? m w = none)
    (top : stock.system.stack t = .release m w (.countTeardown c none) :: below) :
    ReleasesOn p t m w below stock body 1 2 := by
  have advanced : stock.system.advance t = some ((stock.system.bump m .teardowns).setStack t
      (.release m w (.logTeardown c) :: below),[]) := by
    simp only [System.advance,top,System.advanceRelease,System.goto]
  have out : (stock.system.bump m .teardowns).slot? m w = none := by
    rw [System.slot?_bump]
    exact out
  exact .advances yields top rfl advanced rfl (by simp [Calm]) (.bump w .teardowns bound)
    (.logTeardown c out) rfl (by omega)

theorem ReleasesOn.logTeardown (out : stock.system.slot? m w = none)
    (top : stock.system.stack t = .release m w (.logTeardown c) :: below) :
    ReleasesOn p t m w below stock body 0 1 := by
  have advanced : stock.system.advance t = some (stock.system.setStack t (resume .done below).1,
      [.logged (.teardown (stock.system.name m) (stock.system.copyWorker c) (c + 1))] ++
        (resume .done below).2) := by
    simp only [System.advance,top,System.advanceRelease,System.answer]
  exact .ends yields top rfl advanced rfl (by simp [Calm]) out (by decide)

end

/-- A `release` can always take a step, and has fewer steps left after it. -/
theorem Releasing.step {point : ReleasePoint}
    (releasing : Releasing p stock.system t m w point standing left)
    (yields : stock.template.Yields p) (bound : m < stock.system.managers.size) (body : Body)
    (top : stock.system.stack t = .release m w point :: below) :
    ∃ next events, stock.step t body = some (next,events) ∧
      Releases p t m w below stock standing left events next := by
  cases releasing with
  | unregister stands => exact ReleasesOn.unregister yields stands top
  | enter out cell owned => exact ReleasesOn.enter yields out cell owned top
  | retire out cell owned => exact ReleasesOn.retire yields out cell owned top
  | leave out cell owned => exact ReleasesOn.leave yields out cell owned top
  | kill out owned => exact ReleasesOn.kill yields out owned top
  | claim out owned => exact ReleasesOn.claim yields out owned top
  | tearingDown out owned => exact ReleasesOn.tearingDown yields out owned top
  | yield out owned => exact ReleasesOn.yield yields out owned top
  | countTeardown c out => exact ReleasesOn.countTeardown yields bound out top
  | logTeardown c out => exact ReleasesOn.logTeardown yields out top

end PerWorker.Pipeline
