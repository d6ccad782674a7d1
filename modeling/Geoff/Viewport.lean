import Geoff.LonePlayer
import Geoff.ShipRuns

-- What the window sizes and the sliding of MoveShip make of the viewport, in exact
-- arithmetic.
namespace Geoff.Viewport
open Consts Collision PlayerEvents ShipBounds ShipRuns World

variable {A : Arith} {ok : UInt16 → UInt16 → Prop} {w t : World} {event : Event} {address : Nat}

theorem moveShip_context (s : Ship) (u : Size) : (s.moveShip A u).toContext =
    if s.exploding || s.dead then s.toContext else (((s.rotate A).accelerate A).slide A u).toContext := by
  unfold Ship.moveShip
  split
  · rfl
  · generalize ((s.rotate A).accelerate A).slide A u = slid
    have enforced : ∀ s : Ship, (s.enforce A u).toContext = s.toContext := by
      intro s
      unfold Ship.enforce
      split <;> rfl
    unfold Ship.wrap
    split
    · exact enforced _
    · exact enforced _

theorem turned_context (s : Ship) : ((s.rotate A).accelerate A).toContext = s.toContext := by
  unfold Ship.accelerate
  split <;> rfl

theorem turned_place (s : Ship) : ((s.rotate A).accelerate A).toPosition = s.toPosition := by
  unfold Ship.accelerate
  split <;> rfl

theorem newLife_context (s : Ship) : (s.newLife A).toContext = s.toContext := by
  unfold Ship.newLife
  split <;> rfl

theorem tickEvent_context (s : Ship) (u : Size) : (s.tickEvent A u).toContext = (s.moveShip A u).toContext := by
  simp only [Ship.tickEvent]
  split
  · split
    · exact newLife_context _
    · rfl
  · split
    · split
      · rfl
      · obtain ⟨visible,blinkTime,blinkNum,blinked⟩ := Ship.blink_writes A
          {s.moveShip A u with
            gun := (s.moveShip A u).gun.tickEvent A u,
            invDuration := A.fl ((s.moveShip A u).invDuration - A.fl (1 / fps))}
        rw [blinked]
    · rfl

theorem keyEvent_context (p : Player) (code : Nat) (isDown : Bool) : (p.keyEvent A code isDown).ship.toContext = p.ship.toContext := by
  have keyed : (p.ship.keyEvent A code isDown).toContext = p.ship.toContext := by
    rcases p.ship.keyEvent_cases A code isDown with ⟨_,_,_,same⟩ | ⟨_,same⟩
    · rw [same]
    · rw [same]
      rfl
  simp only [Player.keyEvent]
  split
  · split
    · exact (newLife_context _).trans keyed
    · exact keyed
  · exact keyed

theorem scanned_context {s s' : Ship} (scanned : Scanned s s') : s'.toContext = s.toContext := by
  obtain ⟨bullets,_,rfl | ⟨_,_,rfl⟩⟩ := scanned
  · rfl
  · rfl

structure Framed (c : Context) : Prop where
  across : c.ctxOX.toNat + c.ctxW.toNat ≤ 8192
  down : c.ctxOY.toNat + c.ctxH.toNat ≤ 8192

def Fits (w h : UInt16) : Prop := w.toNat ≤ 8192 ∧ h.toNat ≤ 8192

section Exact
variable (cos sin : ℚ → ℚ)

theorem toUint16_floor {x : ℚ} (low : 0 ≤ x) (high : x < 65536) :
    (((Arith.exact cos sin).toUint16 x).toNat : ℚ) ≤ x ∧ x < ((Arith.exact cos sin).toUint16 x).toNat + 1 := by
  have whole := (Arith.exact cos sin).toUint16_fits x (by linarith) high
  rw [trunc,if_pos low] at whole
  have same : (((Arith.exact cos sin).toUint16 x).toNat : ℚ) = ⌊x⌋ := by exact_mod_cast whole
  rw [same]
  exact ⟨Int.floor_le x,Int.lt_floor_add_one x⟩

-- The guards of MoveShip look at the position, the assignments at the position and the
-- margin: together with the frame so far they keep both ends in the universe.
theorem slideAxis_framed (margin pos : ℚ) {offset window : UInt16} (framed : offset.toNat + window.toNat ≤ 8192) :
    (Ship.slideAxis (.exact cos sin) 8192 margin pos offset window).toNat + window.toNat ≤ 8192 ∧
      ∀ x, .toUint16 x ∈ Ship.slideAxisConversions (.exact cos sin) 8192 margin pos offset window → 0 ≤ x := by
  have room : (offset.toNat : ℚ) + window.toNat ≤ 8192 := by exact_mod_cast framed
  have low : (0 : ℚ) ≤ offset.toNat := Nat.cast_nonneg _
  have wide : (0 : ℚ) ≤ window.toNat := Nat.cast_nonneg _
  have slid : ∀ x : ℚ, 0 ≤ x → x + window.toNat ≤ 8192 →
      ((Arith.exact cos sin).toUint16 x).toNat + window.toNat ≤ 8192 := by
    intro x nonneg most
    have floor := (toUint16_floor cos sin nonneg (by linarith)).1
    have total : (((Arith.exact cos sin).toUint16 x).toNat : ℚ) + window.toNat ≤ 8192 := by linarith
    exact_mod_cast total
  unfold Ship.slideAxis Ship.slideAxisConversions
  simp only [show ∀ x, (Arith.exact cos sin).fl x = x from fun _ => rfl]
  split
  · rename_i left
    split
    · rename_i past
      refine ⟨slid _ (by linarith) (by linarith),fun x member => ?_⟩
      cases List.mem_singleton.mp member
      linarith
    · exact ⟨framed,fun x member => absurd member List.not_mem_nil⟩
  · split
    · rename_i right
      split
      · rename_i before
        refine ⟨slid _ (by linarith) (by linarith),fun x member => ?_⟩
        cases List.mem_singleton.mp member
        linarith
      · exact ⟨framed,fun x member => absurd member List.not_mem_nil⟩
    · exact ⟨framed,fun x member => absurd member List.not_mem_nil⟩

theorem slide_framed {s : Ship} (framed : Framed s.toContext) : Framed (s.slide (.exact cos sin) field).toContext ∧
    ∀ x, .toUint16 x ∈ s.slideConversions (.exact cos sin) field → 0 ≤ x := by
  obtain ⟨across,left⟩ := slideAxis_framed cos sin s.viewportMargin s.posX framed.across
  obtain ⟨down,top⟩ := slideAxis_framed cos sin s.viewportMargin s.posY framed.down
  unfold Ship.slide Ship.slideConversions
  split
  · refine ⟨⟨across,down⟩,fun x member => ?_⟩
    rcases List.mem_append.mp member with x_axis | y_axis
    · exact left x x_axis
    · exact top x y_axis
  · exact ⟨framed,fun x member => absurd member List.not_mem_nil⟩

theorem turned_framed {s : Ship} (framed : Framed s.toContext) : Framed ((s.rotate A).accelerate A).toContext := by
  rw [turned_context]
  exact framed

theorem moveShip_framed {s : Ship} (framed : Framed s.toContext) : Framed (s.moveShip (.exact cos sin) field).toContext ∧
    ∀ x, .toUint16 x ∈ s.moveShipConversions (.exact cos sin) field → 0 ≤ x := by
  obtain ⟨slid,truncated⟩ := slide_framed cos sin (turned_framed (A := .exact cos sin) framed)
  rw [moveShip_context,Ship.moveShipConversions]
  split
  · exact ⟨framed,fun x member => absurd member List.not_mem_nil⟩
  · exact ⟨slid,truncated⟩

theorem half_toNat (w : UInt16) : (w / 2).toNat = w.toNat / 2 := UInt16.toNat_div ..

-- The middle of the universe less half a window, as the constructor and as ResizeEvent
-- compute it.
theorem made_offset {w : UInt16} (fits : w.toNat ≤ 8192) :
    ((Arith.exact cos sin).toUint16 (8192 / 2 - (w / 2).toNat)).toNat = 4096 - w.toNat / 2 := by
  have value : (8192 / 2 - ((w / 2).toNat : ℚ)) = (4096 - w.toNat / 2 : Nat) := by
    rw [half_toNat,Nat.cast_sub (by omega)]
    norm_num
  rw [value,Arith.toUint16_nat _ (by omega),UInt16.toNat_ofNat_of_lt' (show _ < 65536 by omega)]

theorem resized_offset {w : UInt16} (fits : w.toNat ≤ 8192) :
    ((Arith.exact cos sin).toUint16 (8192 / 2) - w / 2).toNat = 4096 - w.toNat / 2 := by
  have middle : (Arith.exact cos sin).toUint16 (8192 / 2) = UInt16.ofNat 4096 := by
    rw [show (8192 / 2 : ℚ) = (4096 : Nat) by norm_num]
    exact Arith.toUint16_nat _ (by omega)
  have half := half_toNat w
  have whole : (UInt16.ofNat 4096).toNat = 4096 := rfl
  rw [middle,UInt16.toNat_sub_of_le _ _ (UInt16.le_iff_toNat_le.mpr (by omega)),half]
  rfl

theorem framed_seaworthy : Seaworthy (.exact cos sin) Fits (fun s => Framed s.toContext) where
  made := by
    rintro cw ch ⟨wide,high⟩
    constructor
    · show ((Arith.exact cos sin).toUint16 (8192 / 2 - (cw / 2).toNat)).toNat + cw.toNat ≤ 8192
      rw [made_offset cos sin wide]
      omega
    · show ((Arith.exact cos sin).toUint16 (8192 / 2 - (ch / 2).toNat)).toNat + ch.toNat ≤ 8192
      rw [made_offset cos sin high]
      omega
  trimmed := by
    intro s s' same framed
    have seen : (trim s').toContext = (trim s).toContext := congrArg Ship.toContext same
    show Framed (trim s').toContext
    rw [seen]
    exact framed
  resized := by
    rintro s w h ⟨wide,high⟩ _
    constructor
    · show ((Arith.exact cos sin).toUint16 (8192 / 2) - w / 2).toNat + w.toNat ≤ 8192
      rw [resized_offset cos sin wide]
      omega
    · show ((Arith.exact cos sin).toUint16 (8192 / 2) - h / 2).toNat + h.toNat ≤ 8192
      rw [resized_offset cos sin high]
      omega
  stopped := fun _ framed => framed
  reborn := by
    intro s framed _
    rw [newLife_context]
    exact framed
  moved := fun _ framed _ _ => (moveShip_framed cos sin framed).1
  shielded := by
    intro s framed _
    obtain ⟨_,_,_,_,_,shielded⟩ := shield_writes (A := .exact cos sin) s
    rw [shielded]
    exact framed

-- In every reachable state the viewport is framed, and so it is when the loop over the
-- sessions comes to a player's MoveShip, after the collisions of the tick.
theorem viewport_inside_universe {rand : Rand} {history : List Event}
    (ran : Runs.run (World.step (.exact cos sin)) (World.make (.exact cos sin) rand) history = .ok w)
    (windows : Runs.Steps (World.step (.exact cos sin)) (Windows Fits) (World.make (.exact cos sin) rand) history)
    (made : address < w.game.allocated) :
    Framed (w.game.memory address).ship.toContext ∧
      ∀ before after, w.eventsOf (.exact cos sin) .tick address = before ++ .tick :: after →
        ∀ x, .toUint16 x ∈ (plays (.exact cos sin) field (w.game.memory address) before).ship.moveShipConversions
          (.exact cos sin) field → 0 ≤ x := by
  have lasting := (framed_seaworthy cos sin).lasting
  have framed := (served_run lasting windows ran).players address made
  refine ⟨framed,fun before after split => ?_⟩
  have sized := before_sized (windows_tick Fits w) split
  exact (moveShip_framed cos sin (lasting.plays sized framed)).2

end Exact

-- The window becomes 200 by 200, which is all margin.
def shrinkRequest : List UInt8 := [0xAB,0x06,0,0,0,0,0,200,0,200]

theorem shrink_decoded : Session.requested shrinkRequest (fun _ => 0) = some (.resizeEvent 200 200) := rfl

def shrunkShip : Ship := (play .upright field (Player.make .upright field 800 600) (.resize 200 200)).ship

theorem shrunk_viewport_inside : ∃ w before, Runs.run (World.step .upright) (World.make .upright .zeros)
      (joinEvents ++ [.onRead 0 (.message shrinkRequest fun _ => 0)]) = .ok w ∧
    Framed (w.game.memory 0).ship.toContext ∧ w.eventsOf .upright .tick 0 = before ++ [.tick] ∧
    ((plays .upright field (w.game.memory 0) before).ship.moveShipConversions .upright field).length = 2 ∧
    ∀ x, .toUint16 x ∈ (plays .upright field (w.game.memory 0) before).ship.moveShipConversions .upright field → 0 ≤ x := by
  obtain ⟨first,join⟩ := joined .upright .zeros
  have start : LonePlayer.Solo (· = (Player.make .upright field 800 600).ship) first := LonePlayer.solo_joined join rfl
  obtain ⟨w,shrunk,solo⟩ := LonePlayer.solo_plays (A := .upright) (· = shrunkShip) start shrink_decoded rfl
    fun p same => congrArg (fun s => Ship.resizeEvent .upright field s 200 200) same
  have ran : Runs.run (World.step .upright) (World.make .upright .zeros)
      (joinEvents ++ [.onRead 0 (.message shrinkRequest fun _ => 0)]) = .ok w := by
    rw [Runs.run_append _ join.run,Runs.run_single]
    exact shrunk
  have windows : ∀ first, Runs.Steps (World.step .upright) (Windows Fits) first
      (joinEvents ++ [.onRead 0 (.message shrinkRequest fun _ => 0)]) := by
    refine Runs.steps_each fun event member w => ?_
    rcases List.mem_append.mp member with early | late
    · exact windows_join ⟨by decide,by decide⟩ event early w
    · rw [List.mem_singleton.mp late]
      refine windows_message (fun x known => ?_) w
      cases shrink_decoded.symm.trans known
      exact ⟨by decide,by decide⟩
  obtain ⟨before,split,_,ship⟩ := LonePlayer.solo_events (A := .upright) solo
  have moves : (plays .upright field (w.game.memory 0) before).ship = shrunkShip := by
    rw [solo.size] at ship
    exact ship.trans solo.ship
  obtain ⟨framed,inside⟩ := viewport_inside_universe (fun _ => 0) (fun _ => 1) ran (windows _) solo.made
  refine ⟨w,before,ran,framed,split,?_,inside before [] split⟩
  rw [moves]
  decide +kernel

end Geoff.Viewport
