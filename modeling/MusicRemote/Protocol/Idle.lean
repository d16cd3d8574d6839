import MusicRemote.Control.PingForever
import MusicRemote.Server.PingTask
import MusicRemote.Server.UdpSession

namespace MusicRemote.Protocol.Idle

open Foundation Foundation.Transition Server Control

/-- The timestamp is less than a second behind every activity that it has taken in, the start among
them. -/
def WithinASecond {ι : Type} (s : Throttle.Throttled ι) : Prop :=
  ∀ t ∈ s.active, t < s.stamp + second ∧ s.stamp ≤ s.now

theorem withinASecond_of_sound {ι : Type} {s : Throttle.Throttled ι} (h : s.Sound second) :
    WithinASecond s := fun t ht ↦ ⟨(h.active t ht).2, h.stamp⟩

/-- In all three places that keep such a timestamp, what is taken for an idle time is at most a
second longer than the true one. -/
theorem idle_times_within_a_second :
    (∀ addr hasReceiver now as s,
      Run UdpSession.step Any (.start addr hasReceiver now) as s →
      WithinASecond s.time ∧
        (s.phase = .closing .timeout → ∀ t ∈ s.time.active, t + 9 * second < s.time.now)) ∧
    (∀ now as s, Run PingForever.step Any (.start now) as s →
      WithinASecond s.time ∧
        (s.ending = some .pingTimeout → ∀ t ∈ s.time.active, t + 14 * second < s.time.now)) ∧
    ∀ now as s, Run PingTask.step Any (.start now) as s →
      WithinASecond s.time ∧ ∀ a u, PingTask.step s a = some u → u.pings ≠ s.pings →
        ∀ t ∈ s.time.active, t + 9 * second < s.time.now := by
  refine ⟨fun addr hasReceiver now as s h ↦ ⟨?_, ?_⟩, fun now as s h ↦ ⟨?_, ?_⟩,
    fun now as s h ↦ ⟨?_, ?_⟩⟩
  · exact withinASecond_of_sound (UdpSession.kept_of_run h).sound
  · exact fun hphase t ht ↦ UdpSession.idle_of_timeout h hphase ht
  · exact withinASecond_of_sound (PingForever.sound_of_run h)
  · exact fun hend t ht ↦ PingForever.idle_of_pingTimeout h hend ht
  · exact withinASecond_of_sound (PingTask.sound_of_run h)
  · exact fun a u hstep hping t ht ↦ PingTask.idle_of_ping h hstep hping ht

/-- A session of its own socket, a connection and a player, each of which hears of its peer half a
second after the start and then nothing more. -/
def silentSession : List UdpSession.Action :=
  [.pass (second / 2), .receive (.frameFrom [1] ⟨[127, 0, 0, 1], 50000⟩), .checkActive .reader,
    .deliver true, .pass (9 * second + second * 3 / 4), .wakeTimer, .pollTimeout]

def silentServer : List PingForever.Action :=
  [.pass (second / 2), .readBuf 1, .checkActive, .unpacked true,
    .pass (14 * second + second * 3 / 4), .wake, .ask, .judge]

def silentPlayer : List PingTask.Action :=
  [.pass (second / 2), .onRecvMessage, .checkActive, .handled, .pass (9 * second + second * 3 / 4),
    .wake]

/-- All three act a quarter of a second before the time is really up. -/
theorem silence_is_overstated :
    (∃ s, Run UdpSession.step Any (.start ⟨[127, 0, 0, 1], 50000⟩ false 0) silentSession s ∧
      s.phase = .closing .timeout ∧ second / 2 ∈ s.time.active ∧
      second / 2 + 9 * second < s.time.now ∧ s.time.now < second / 2 + 10 * second) ∧
    (∃ s, Run PingForever.step Any (.start 0) silentServer s ∧
      s.ending = some .pingTimeout ∧ second / 2 ∈ s.time.active ∧
      second / 2 + 14 * second < s.time.now ∧ s.time.now < second / 2 + 15 * second) ∧
    ∃ s, Run PingTask.step Any (.start 0) silentPlayer s ∧
      (∃ u, PingTask.step s .ask = some u ∧ u.pings = s.pings ++ [s.time.now]) ∧
      second / 2 ∈ s.time.active ∧
      second / 2 + 9 * second < s.time.now ∧ s.time.now < second / 2 + 10 * second := by
  obtain ⟨hsession, hserver, hplayer⟩ := idle_times_within_a_second
  refine ⟨?_, ?_, ?_⟩
  · obtain ⟨s, h, hphase, hactive, hnow⟩ : ∃ s,
        Run UdpSession.step Any (.start ⟨[127, 0, 0, 1], 50000⟩ false 0) silentSession s ∧
        (s.phase = .closing .timeout ∧ second / 2 ∈ s.time.active ∧
          s.time.now < second / 2 + 10 * second) := Run.exists_of_execute (by decide +kernel)
    exact ⟨s, h, hphase, hactive, (hsession _ _ _ _ _ h).2 hphase _ hactive, hnow⟩
  · obtain ⟨s, h, hending, hactive, hnow⟩ : ∃ s,
        Run PingForever.step Any (.start 0) silentServer s ∧
        (s.ending = some .pingTimeout ∧ second / 2 ∈ s.time.active ∧
          s.time.now < second / 2 + 15 * second) := Run.exists_of_execute (by decide +kernel)
    exact ⟨s, h, hending, hactive, (hserver _ _ _ h).2 hending _ hactive, hnow⟩
  · obtain ⟨s, h, hping, hactive, hnow⟩ : ∃ s,
        Run PingTask.step Any (.start 0) silentPlayer s ∧
        ((PingTask.step s .ask).map (·.pings) = some (s.pings ++ [s.time.now]) ∧
          second / 2 ∈ s.time.active ∧ s.time.now < second / 2 + 10 * second) :=
      Run.exists_of_execute (by decide +kernel)
    obtain ⟨u, hu, hpings⟩ := Option.map_eq_some_iff.1 hping
    have hnew : u.pings ≠ s.pings := by simp [hpings]
    exact ⟨s, h, ⟨u, hu, hpings⟩, hactive, (hplayer _ _ _ h).2 _ u hu hnew _ hactive, hnow⟩

end MusicRemote.Protocol.Idle
