/-
`Settings` -- the persistent settings of `sp-engine/src/settings.rs`, as far as
the engine reads, clamps or writes them; what only a user interface shows (theme,
language, hotkeys, update checks) is left out.

Floating-point settings are rationals. A device's profile is keyed by the text a
client sent, which need not be a device id.

Settings arrive in two ways, from the file and from a client, and `sanitize` stands behind both: it
trims texts, clamps numbers and bounds the lists, so that the rest of the engine may rely on their
ranges. What the file may hold beside that (older versions, unknown fields, texts that are no
settings) is the subject of a module of its own.

The structures keep the groups of the source, and every default is the source's. A field that only
the user interface reads is not there, which no function of this development can tell.
-/
import SoundPush.Media.Jitter
import SoundPush.Media.Profile
import SoundPush.Lib.OrdMap
import Mathlib.Data.String.Basic
import Mathlib.Algebra.Order.Ring.Rat

set_option autoImplicit false

namespace SoundPush

/-! ## 1. Text -/

/-- `char::is_whitespace`: the Unicode `White_Space` property. -/
def is_whitespace (c : Char) : Bool :=
  let n := c.toNat
  (9 ≤ n ∧ n ≤ 13) || n = 32 || n = 0x85 || n = 0xA0 || n = 0x1680 ||
    (0x2000 ≤ n ∧ n ≤ 0x200A) || n = 0x2028 || n = 0x2029 || n = 0x202F || n = 0x205F ||
    n = 0x3000

/-- `str::trim` on the characters. -/
def trim (s : List Char) : List Char :=
  ((s.dropWhile is_whitespace).reverse.dropWhile is_whitespace).reverse

/-- `s.trim().chars().take(n).collect()`. -/
def trim_take (n : Nat) (s : String) : String := String.ofList ((trim s.toList).take n)

/-- `char::is_ascii_hexdigit`. -/
def is_ascii_hexdigit (c : Char) : Bool :=
  let n := c.toNat
  (48 ≤ n ∧ n ≤ 57) || (65 ≤ n ∧ n ≤ 70) || (97 ≤ n ∧ n ≤ 102)

/-! ## 2. Routes, as settings name them

Ten kinds, five of them as this device sends and the same five as it receives. The wire names the
two endpoints and who the source is; a kind is what that means here. -/

/-- What a route carries, seen from this device. -/
inductive RouteKind where
  | SendSystemAudio
  | SendAppAudio
  | SendMixed
  | SendMicToVirtualMic
  | SendMicToSpeaker
  | ReceiveSystemAudio
  | ReceiveAppAudio
  | ReceiveMixed
  | ReceiveMicToVirtualMic
  | ReceiveMicToSpeaker
  deriving DecidableEq, Repr

namespace RouteKind

/-- This device is where the sound comes from. -/
def local_is_source : RouteKind → Bool
  | SendSystemAudio | SendAppAudio | SendMixed | SendMicToVirtualMic | SendMicToSpeaker => true
  | _ => false

/-- Wire endpoint ids (source, sink). -/
def endpoints : RouteKind → String × String
  | SendSystemAudio | ReceiveSystemAudio => ("system", "speaker")
  | SendAppAudio | ReceiveAppAudio => ("apps", "speaker")
  | SendMixed | ReceiveMixed => ("mixed", "speaker")
  | SendMicToVirtualMic | ReceiveMicToVirtualMic => ("mic", "virtual-mic")
  | SendMicToSpeaker | ReceiveMicToSpeaker => ("mic", "speaker")

/-- The same route seen from the other device. -/
def mirrored : RouteKind → RouteKind
  | SendSystemAudio => ReceiveSystemAudio
  | SendAppAudio => ReceiveAppAudio
  | SendMixed => ReceiveMixed
  | SendMicToVirtualMic => ReceiveMicToVirtualMic
  | SendMicToSpeaker => ReceiveMicToSpeaker
  | ReceiveSystemAudio => SendSystemAudio
  | ReceiveAppAudio => SendAppAudio
  | ReceiveMixed => SendMixed
  | ReceiveMicToVirtualMic => SendMicToVirtualMic
  | ReceiveMicToSpeaker => SendMicToSpeaker

/-- The kind seen from the source device. -/
def send_from_endpoints (source sink : String) : Option RouteKind :=
  match source, sink with
  | "system", "speaker" => some SendSystemAudio
  | "apps", "speaker" => some SendAppAudio
  | "mixed", "speaker" => some SendMixed
  | "mic", "virtual-mic" => some SendMicToVirtualMic
  | "mic", "speaker" => some SendMicToSpeaker
  | _, _ => none

/-- The kind that the endpoints mean on this device. -/
def from_endpoints (source sink : String) (local_is_source : Bool) : Option RouteKind :=
  (send_from_endpoints source sink).map fun send =>
    if local_is_source then send else send.mirrored

/-- The sound is a microphone's alone; a mix of system sound and microphone is not. -/
def is_mic : RouteKind → Bool
  | SendMicToVirtualMic | SendMicToSpeaker | ReceiveMicToVirtualMic | ReceiveMicToSpeaker => true
  | _ => false

/-- Of the two devices exactly one is the source. -/
theorem local_is_source_mirrored (k : RouteKind) :
    k.mirrored.local_is_source = !k.local_is_source := by
  cases k <;> rfl

end RouteKind

/-! ## 3. Settings

The groups of the settings, each with its default and the readings that other modules make of it. -/

/-- The transport that the user insists on, if any. -/
inductive TransportPin where
  | Quic
  | Tcp
  | Usb
  | Auto
  deriving DecidableEq, Repr

/-- The latency as the user picks it; the numbers of a custom one are kept beside it. -/
inductive LatencyMode where
  | LowLatency
  | Balanced
  | Stable
  | Custom
  deriving DecidableEq, Repr

/-- The quality as the user picks it; the bitrate of Opus is kept beside it. -/
inductive QualityMode where
  | Auto
  | Opus
  | Lossless
  deriving DecidableEq, Repr

/-- Whether each packet carries the previous frame again. -/
inductive RedundancyMode where
  /-- switched on while the connection loses packets -/
  | Auto
  | On
  | Off
  deriving DecidableEq, Repr

/-- What the user wants of streams. -/
structure StreamSettings where
  latency : LatencyMode
  custom_min_ms : Nat
  custom_max_ms : Nat
  quality : QualityMode
  opus_bitrate : Nat
  redundancy : RedundancyMode
  deriving DecidableEq, Repr

namespace StreamSettings

/-- The stream settings of a new installation. -/
def default : StreamSettings :=
  { latency := .Balanced, custom_min_ms := 30, custom_max_ms := 120, quality := .Auto,
    opus_bitrate := 128000, redundancy := .Auto }

/-- Redundancy is on from the start. -/
def redundancy_always (s : StreamSettings) : Bool := s.redundancy = .On

/-- Redundancy follows the loss. -/
def redundancy_auto (s : StreamSettings) : Bool := s.redundancy = .Auto

/-- The latency with its numbers. -/
def latency_profile (s : StreamSettings) : LatencyProfile :=
  match s.latency with
  | .LowLatency => .LowLatency
  | .Balanced => .Balanced
  | .Stable => .Stable
  | .Custom => .Custom s.custom_min_ms s.custom_max_ms

/-- The quality with its bitrate. -/
def to_quality (s : StreamSettings) : Quality :=
  match s.quality with
  | .Auto => .Auto
  | .Opus => .Opus s.opus_bitrate
  | .Lossless => .Lossless

end StreamSettings

/-- How sound is played here. -/
structure OutputSettings where
  /-- `none` follows the system default output -/
  device : Option String
  volume : ℚ
  balance : ℚ
  mono : Bool
  av_offset_ms : Int
  deriving DecidableEq

def OutputSettings.default : OutputSettings :=
  { device := none, volume := 1, balance := 0, mono := false, av_offset_ms := 0 }

/-- Which device runs noise suppression on a microphone stream. -/
inductive DenoiseAt where
  | Sender
  | Receiver
  deriving DecidableEq, Repr

/-- How the microphone is captured. -/
structure MicSettings where
  /-- `none` uses the system default input -/
  device : Option String
  gain_db : ℚ
  noise_suppression : Bool
  noise_suppression_at : DenoiseAt
  monitor : Bool
  high_pass : Bool
  echo_ducking : Bool
  deriving DecidableEq

namespace MicSettings

def default : MicSettings :=
  { device := none, gain_db := 0, noise_suppression := false, noise_suppression_at := .Sender,
    monitor := false, high_pass := true, echo_ducking := false }

/-- Where noise suppression runs for a microphone stream sent to one peer, as
(this device, the other device). -/
def denoise_placement (m : MicSettings) (peer_can_denoise : Bool) : Bool × Bool :=
  match m.noise_suppression, m.noise_suppression_at with
  | false, _ => (false, false)
  | true, .Receiver => if peer_can_denoise then (false, true) else (true, false)
  | true, .Sender => (true, false)

end MicSettings

/-- The gains of the two sources of a mixed stream. -/
structure MixedSettings where
  system_gain_db : ℚ
  mic_gain_db : ℚ
  deriving DecidableEq

/-- What of this computer's sound is captured. -/
structure CaptureSettings where
  /-- output device whose audio is sent (`none` is the system default) -/
  system_device : Option String
  mute_local_speakers : Bool
  /-- send only this app's audio -/
  app : Option String
  /-- send everything except `app` instead -/
  exclude_app : Bool
  deriving DecidableEq, Repr

/-- The virtual microphone, and who feeds it. -/
structure DesktopSettings where
  virtual_mic_device : Option String
  auto_start_mic : Bool
  last_mic_peer : Option String
  deriving DecidableEq, Repr

/-- What is kept open while nothing uses it. -/
structure AdvancedSettings where
  continuous_capture : Bool
  keep_audio_devices_open : Bool
  deriving DecidableEq, Repr

/-- A route restored when its device connects after a restart. -/
structure SavedRoute where
  peer_id : String
  kind : RouteKind
  /-- the user chose "Keep running after restart" -/
  keep : Bool
  deriving DecidableEq, Repr

/-- The entry is about this kind of route with this device. -/
def SavedRoute.is_for (s : SavedRoute) (peer_id : String) (kind : RouteKind) : Bool :=
  s.peer_id == peer_id && s.kind == kind

/-- Per-device overrides of the stream settings; `none` follows the global setting. -/
structure DeviceProfile where
  latency : Option LatencyMode
  custom_min_ms : Option Nat
  custom_max_ms : Option Nat
  quality : Option QualityMode
  opus_bitrate : Option Nat
  redundancy : Option RedundancyMode
  deriving DecidableEq, Repr

/-- Profiles of devices beyond this many are dropped. -/
def MAX_DEVICE_PROFILES : Nat := 64

namespace DeviceProfile

def default : DeviceProfile := ⟨none, none, none, none, none, none⟩

/-- A profile that overrides nothing is not stored. -/
def is_empty (p : DeviceProfile) : Bool := p = default

/-- The global stream settings with this profile's overrides applied. -/
def apply (p : DeviceProfile) (base : StreamSettings) : StreamSettings :=
  let custom_min_ms := clamp (p.custom_min_ms.getD base.custom_min_ms) 5 500
  { latency := p.latency.getD base.latency
    custom_min_ms
    custom_max_ms := clamp (p.custom_max_ms.getD base.custom_max_ms) custom_min_ms 1000
    quality := p.quality.getD base.quality
    opus_bitrate := clamp (p.opus_bitrate.getD base.opus_bitrate) 6000 510000
    redundancy := p.redundancy.getD base.redundancy }

/-- Numbers that are there are brought into range; the window of a custom latency is put in
order when the profile is applied. -/
def sanitize (p : DeviceProfile) : DeviceProfile :=
  { p with
    opus_bitrate := p.opus_bitrate.map (clamp · 6000 510000)
    custom_min_ms := p.custom_min_ms.map (clamp · 5 500)
    custom_max_ms := p.custom_max_ms.map (clamp · 5 1000) }

end DeviceProfile

/-- The version that this build writes. -/
def SETTINGS_VERSION : Nat := 3

/-- The most devices that may be fed from one source, whatever the user says. -/
def MAX_RECEIVERS_LIMIT : Nat := 16

/-- And how many may be by default. -/
def DEFAULT_MAX_RECEIVERS : Nat := 8

/-- Debug logging switches itself off after this long. -/
def DEBUG_LOGGING_SECS : Nat := 24 * 3600

/-- All of the settings. -/
structure Settings where
  version : Nat
  device_name : String
  stream : StreamSettings
  output : OutputSettings
  mic : MicSettings
  capture : CaptureSettings
  mixed : MixedSettings
  desktop : DesktopSettings
  auto_connect_trusted : Bool
  transport : TransportPin
  max_receivers : Nat
  resume_routes_on_start : Bool
  saved_routes : List SavedRoute
  dismissed_tips : List String
  /-- per-device stream overrides, keyed by device id (hex) -/
  device_profiles : OrdMap String DeviceProfile
  debug_logging : Bool
  /-- when debug logging switches itself off (unix seconds; 0 while off) -/
  debug_logging_until_unix : Nat
  advanced : AdvancedSettings

namespace Settings

/-- The settings of a new installation. -/
def default : Settings :=
  { version := SETTINGS_VERSION
    device_name := ""
    stream := .default
    output := .default
    mic := .default
    capture := { system_device := none, mute_local_speakers := false, app := none,
                 exclude_app := false }
    mixed := { system_gain_db := 0, mic_gain_db := 0 }
    desktop := { virtual_mic_device := none, auto_start_mic := false, last_mic_peer := none }
    auto_connect_trusted := true
    transport := .Auto
    max_receivers := DEFAULT_MAX_RECEIVERS
    resume_routes_on_start := false
    saved_routes := []
    dismissed_tips := []
    device_profiles := ∅
    debug_logging := false
    debug_logging_until_unix := 0
    advanced := { continuous_capture := false, keep_audio_devices_open := false } }

/-- `f32::clamp`, `i32::clamp`. -/
def clamp_between {α : Type} [LinearOrder α] (x lo hi : α) : α := max lo (min x hi)

/-- Clamp values into valid ranges. -/
def sanitize (s : Settings) : Settings :=
  let custom_min_ms := clamp s.stream.custom_min_ms 5 500
  { s with
    device_name := trim_take 64 s.device_name
    output := { s.output with
      volume := clamp_between s.output.volume 0 2
      balance := clamp_between s.output.balance (-1) 1
      av_offset_ms := clamp_between s.output.av_offset_ms (-500) 500 }
    mic := { s.mic with gain_db := clamp_between s.mic.gain_db 0 20 }
    mixed := { system_gain_db := clamp_between s.mixed.system_gain_db (-30) 10
               mic_gain_db := clamp_between s.mixed.mic_gain_db (-30) 10 }
    stream := { s.stream with
      opus_bitrate := clamp s.stream.opus_bitrate 6000 510000
      custom_min_ms
      custom_max_ms := clamp s.stream.custom_max_ms custom_min_ms 1000 }
    max_receivers := clamp s.max_receivers 1 MAX_RECEIVERS_LIMIT
    capture := { s.capture with
      app := (s.capture.app.map (trim_take 260)).filter (fun a => a ≠ "") }
    dismissed_tips := s.dismissed_tips.take 256
    saved_routes := s.saved_routes.take 32
    device_profiles :=
      ((s.device_profiles.retain fun id p =>
          id.toList.length = 32 ∧ id.toList.all is_ascii_hexdigit ∧ ¬p.is_empty).mapValues
        DeviceProfile.sanitize).takeFirst MAX_DEVICE_PROFILES
    version := SETTINGS_VERSION }

/-- Give debug logging its end time; `was_on` is the setting before this change. -/
def schedule_debug_logging (s : Settings) (was_on : Bool) (now_unix : Nat) : Settings :=
  let latest := sat_add now_unix DEBUG_LOGGING_SECS
  { s with
    debug_logging_until_unix :=
      match s.debug_logging, was_on with
      | false, _ => 0
      | true, false => latest
      | true, true =>
          if s.debug_logging_until_unix = 0 then latest
          else min s.debug_logging_until_unix latest }

/-- Switch debug logging off once its time is up; the flag says whether it changed. -/
def expire_debug_logging (s : Settings) (now_unix : Nat) : Settings × Bool :=
  if s.debug_logging && s.debug_logging_until_unix ≤ now_unix then
    ({ s with debug_logging := false, debug_logging_until_unix := 0 }, true)
  else (s, false)

/-- Stream settings for routes with `peer_id` (hex): the global settings plus the device's
profile. -/
def stream_for (s : Settings) (peer_id : String) : StreamSettings :=
  match s.device_profiles.get peer_id with
  | some profile => profile.apply s.stream
  | none => s.stream

end Settings

end SoundPush
