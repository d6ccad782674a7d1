import Geoff.GameSteps

-- What can happen to a Player object: requests, rounds of the collision detection
-- and ticks, in any order. Every player of a running server has come about this way.
namespace Geoff.PlayerEvents
open Collision

inductive PlayerEvent where
  | key (code : Nat) (isDown : Bool)
  | resize (w h : UInt16)
  | collide (rocks : List RockNode) (score : UInt32)
  | tick

-- `collide` is the player's round of CollisionDetection: the rocks it scans and what
-- they score in all.
def play (A : Arith) (u : Size) (p : Player) : PlayerEvent → Player
  | .key code isDown => p.keyEvent A code isDown
  | .resize w h => p.resizeEvent A u w h
  | .collide rocks score => {p with ship := (scanRocks A rocks p.ship).1, score := p.score + score}
  | .tick => p.tick A u

def plays (A : Arith) (u : Size) (p : Player) (events : List PlayerEvent) : Player := events.foldl (play A u) p

variable {A : Arith} {u : Size}

theorem plays_append (p : Player) (first rest : List PlayerEvent) :
    plays A u p (first ++ rest) = plays A u (plays A u p first) rest := List.foldl_append

structure Played (A : Arith) (g g' : Game) : Prop where
  size : g'.gUniverse.toSize = g.gUniverse.toSize
  allocated : g'.allocated = g.allocated
  players : ∀ address, ∃ events, g'.memory address = plays A g.gUniverse.toSize (g.memory address) events

theorem Played.refl (g : Game) : Played A g g := ⟨rfl,rfl,fun _ => ⟨[],rfl⟩⟩

theorem Played.trans {g g' g'' : Game} (first : Played A g g') (second : Played A g' g'') : Played A g g'' := by
  refine ⟨second.size.trans first.size,second.allocated.trans first.allocated,fun address => ?_⟩
  obtain ⟨early,same⟩ := first.players address
  obtain ⟨late,again⟩ := second.players address
  exact ⟨early ++ late,by rw [plays_append,← same,again,first.size]⟩

theorem played_set (g : Game) (address : Nat) (event : PlayerEvent) :
    Played A g (g.setPlayer address (play A g.gUniverse.toSize (g.memory address) event)) := by
  refine ⟨rfl,rfl,fun other => ?_⟩
  by_cases same : other = address
  · subst same
    exact ⟨[event],by rw [Game.setPlayer_self]; rfl⟩
  · exact ⟨[],by rw [Game.setPlayer_other same]; rfl⟩

theorem scoreRocks_score {id : UInt32} {address : Nat} {g g' : Game} {rocks : List Nat}
    (ran : rocks.foldlM (scoreRock A id address) g = .ok g') :
    ∃ score, g'.memory address = {g.memory address with score := (g.memory address).score + score} := by
  refine Runs.run_relates (r := fun (g g' : Game) => ∃ score : UInt32, g'.memory address =
    {g.memory address with score := (g.memory address).score + score}) (fun g => ⟨0,by simp⟩) ?_ ?_ ran
  · rintro g g' g'' ⟨first,same⟩ ⟨second,again⟩
    exact ⟨first + second,by rw [again,same]; simp [UInt32.add_assoc]⟩
  · intro g rockIt g' _ one
    unfold scoreRock at one
    split at one
    · cases one
    · rename_i rock _
      obtain ⟨⟨field,rand⟩,_,result⟩ := Runs.bind_ok.mp one
      cases result
      exact ⟨scoreOf rock.radius,Game.setPlayer_self ..⟩

theorem playerRound_played {g g' : Game} {pair : UInt32 × Option Nat} (ran : playerRound A g pair = .ok g') :
    Played A g g' := by
  obtain ⟨id,_ | address⟩ := pair
  · rw [playerRound_null ran]
    exact .refl g
  · have charged := playerRound_charged ran
    refine ⟨charged.size,charged.allocated,fun other => ?_⟩
    by_cases same : other = address
    · subst same
      obtain ⟨score,total⟩ := scoreRocks_score ran
      rw [scan,Game.setPlayer_self] at total
      exact ⟨[.collide g.gUniverse.rockField.rocks score],total⟩
    · exact ⟨[],charged.others other same⟩

theorem gameTick_played {g g' : Game} {m m' : SessionMap} {tickCount : UInt32}
    (ran : g.tickEvent A m tickCount = .ok (g',m')) : Played A g g' := by
  have rounds := Runs.run_relates (r := Played A) Played.refl (fun _ _ _ first second => first.trans second)
    (fun _ _ _ _ one => playerRound_played one) (gameTick_ok ran)
  exact ⟨rounds.size,rounds.allocated,rounds.players⟩

theorem sessionTick_played {s s' : Session} {g g' : Game} (ran : s.tickEvent A g = .ok (s',g')) : Played A g g' := by
  cases known : s.player with
  | none =>
    rw [Messages.sessionTick_unregistered known] at ran
    cases ran
    exact .refl g
  | some address =>
    rw [Messages.sessionTick_built known] at ran
    cases ran
    exact played_set g address .tick

theorem timerRound_played {w t : World} {id : UInt32} (ran : w.timerRound A id = .ok t) : Played A w.game t.game := by
  unfold World.timerRound at ran
  split at ran
  · obtain ⟨⟨session,game⟩,ticked,ran⟩ := Runs.bind_ok.mp ran
    rw [(World.onTxReady_game ran).1]
    exact sessionTick_played ticked
  · cases ran; exact .refl _

theorem tick_played {w t : World} (ran : w.tickEvent A = .ok t) : Played A w.game t.game := by
  unfold World.tickEvent at ran
  split at ran
  · cases ran; exact .refl _
  · obtain ⟨⟨game,sessions⟩,ticked,ran⟩ := Runs.bind_ok.mp ran
    exact (gameTick_played ticked).trans (Runs.run_relates (r := fun (w t : World) => Played A w.game t.game)
      (fun _ => .refl _) (fun _ _ _ first second => first.trans second) (fun _ _ _ _ one => timerRound_played one) ran)

theorem effect_played {s : Session} {g g' : Game} {asked : Option RequestType} {down : Bool} {player : Option Nat}
    (effect : Effect A s g asked down player g') :
    Played A g g' ∨ ∃ w h, g' = g.newPlayer A s.sessionID w h := by
  cases effect with
  | idle => exact .inl (.refl g)
  | register type w h => exact .inr ⟨w,h,rfl⟩
  | key type known code => exact .inl (played_set g _ (.key code down))
  | click p => exact .inl ⟨rfl,rfl,fun _ => ⟨[],rfl⟩⟩
  | resize known w h => exact .inl (played_set g _ (.resize w h))

structure Careers (A : Arith) (u : Size) (w : World) : Prop where
  size : w.game.gUniverse.toSize = u
  careers : ∀ address < w.game.allocated, ∃ cw ch events, w.game.memory address = plays A u (Player.make A u cw ch) events

theorem careers_played {w t : World} (careers : Careers A u w) (played : Played A w.game t.game) : Careers A u t := by
  refine ⟨played.size.trans careers.size,fun address old => ?_⟩
  rw [played.allocated] at old
  obtain ⟨cw,ch,early,same⟩ := careers.careers address old
  obtain ⟨late,again⟩ := played.players address
  exact ⟨cw,ch,early ++ late,by rw [plays_append,← same,again,careers.size]⟩

theorem careers_step {w t : World} {event : Event} (careers : Careers A u w) (ran : w.step A event = .ok t) :
    Careers A u t := by
  cases World.step_turn ran with
  | quiet _ game _ => exact careers_played careers (by rw [game]; exact .refl _)
  | tick ticked => exact careers_played careers (tick_played ticked)
  | request member found effect _ =>
    rcases effect_played effect with played | ⟨cw,ch,made⟩
    · exact careers_played careers played
    · refine ⟨by rw [made]; exact careers.size,fun address old => ?_⟩
      rw [made] at old ⊢
      by_cases new : address = w.game.allocated
      · rw [new,Game.newPlayer_memory,careers.size]
        exact ⟨cw,ch,[],rfl⟩
      · rw [Game.newPlayer_other A new]
        exact careers.careers address (by simp only [Game.newPlayer] at old; omega)

theorem careers_run {rand : Rand} {w : World} {events : List Event}
    (ran : Runs.run (World.step A) (World.make A rand) events = .ok w) : Careers A ⟨8192,8192⟩ w := by
  have fresh := Game.make_fresh A rand
  refine Runs.run_invariant (Careers A ⟨8192,8192⟩) (fun _ _ _ careers one => careers_step careers one) ?_ ran
  rw [← World.make_game A rand] at fresh
  exact ⟨fresh.size,fun address old => absurd old (by rw [fresh.allocated]; exact Nat.not_lt_zero _)⟩

end Geoff.PlayerEvents
