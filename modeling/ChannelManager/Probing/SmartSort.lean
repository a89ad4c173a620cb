import ChannelManager.Lib.Dict
import ChannelManager.Lib.SortOn
import ChannelManager.Templates.Segment
import Mathlib.Algebra.Order.Ring.Unbundled.Rat
import Mathlib.Data.Finset.Basic
import Mathlib.Data.List.Lex

/-!
# The smart sort of streams

Streams are sorted by what was probed of them, in the order of the criteria that are enabled. The
prober sorts them so, and the channel pipeline has a sort of its own after the same rules. Failed
streams, black screens and streams of few frames come last where they are deprioritized.
-/

namespace ChannelManager.Probing

open Templates (Text)

/-- The criteria of a priority order. Neither sort knows an `other`. -/
inductive Criterion
  | resolution
  | bitrate
  | framerate
  | m3uPriority
  | audioChannels
  | videoCodec
  | customStreams
  | catchup
  | other (name : String)
deriving DecidableEq

/-- `StreamStats`. -/
structure StreamStats where
  resolution : Option Text
  fps : Option Text
  videoCodec : Option Text
  audioChannels : Option ℤ
  bitrate : Option ℤ
  videoBitrate : Option ℤ
  probeStatus : String
  isBlackScreen : Bool
  isLowFps : Bool
deriving DecidableEq

/-- What Python reads in a text: `int` and `float`, where they read a number, and `lower`. -/
structure Python where
  int : Text → Option ℤ
  float : Text → Option ℚ
  lower : Text → Text

def codecRank : List (Text × ℤ) :=
  [("av1".toList, 5), ("hevc".toList, 4), ("h265".toList, 4), ("vp9".toList, 3), ("h264".toList, 2),
    ("avc".toList, 2), ("vp8".toList, 1), ("mpeg2video".toList, 0), ("mpeg2".toList, 0)]

def getCodecRank (python : Python) (codecName : Option Text) : ℤ :=
  match codecName with
  | none => 0
  | some name => if name = [] then 0 else (findEntry (python.lower name) codecRank).getD 0

/-- The height of `1920x1080`. -/
def resolutionValue (python : Python) (stats : StreamStats) : ℤ :=
  match stats.resolution with
  | none => 0
  | some resolution =>
    match resolution.splitOn 'x' with
    | [_, height] => (python.int height).getD 0
    | _ => 0

def bitrateValue (stats : StreamStats) : ℤ :=
  if stats.videoBitrate.getD 0 ≠ 0 then stats.videoBitrate.getD 0 else stats.bitrate.getD 0

def framerateValue (python : Python) (stats : StreamStats) : ℚ :=
  match stats.fps with
  | none => 0
  | some fps => if fps = [] then 0 else (python.float fps).getD 0

/-- The priority of the account of a stream; one without an account has that of `custom`. -/
def accountPriority (m3uAccountPriorities : Dict String ℤ) (streamM3uMap : Dict ℤ ℤ) (sid : ℤ) : ℤ :=
  match streamM3uMap.get? sid with
  | some account => (m3uAccountPriorities.get? (toString account)).getD 0
  | none => (m3uAccountPriorities.get? "custom").getD 0

def isIn (ids : Finset ℤ) (sid : ℤ) : ℤ := if sid ∈ ids then 1 else 0

/-- What both sorts are given but for the streams. -/
structure SortInput where
  python : Python
  m3uAccountPriorities : Dict String ℤ
  streamM3uMap : Dict ℤ ℤ
  customStreamIds : Finset ℤ
  catchupStreamIds : Finset ℤ

/-- The value of a criterion, higher ones first. -/
def criterionValue (input : SortInput) (stats : Option StreamStats) (sid : ℤ) : Criterion → Option ℚ
  | .resolution => some (-((stats.map (resolutionValue input.python)).getD 0 : ℤ))
  | .bitrate => some (-((stats.map bitrateValue).getD 0 : ℤ))
  | .framerate => some (-(stats.map (framerateValue input.python)).getD 0)
  | .m3uPriority => some (-(accountPriority input.m3uAccountPriorities input.streamM3uMap sid : ℤ))
  | .audioChannels => some (-((stats.map fun stats => stats.audioChannels.getD 0).getD 0 : ℤ))
  | .videoCodec => some (-((stats.map fun stats => getCodecRank input.python stats.videoCodec).getD 0 : ℤ))
  | .customStreams => some (-(isIn input.customStreamIds sid : ℤ))
  | .catchup => some (-(isIn input.catchupStreamIds sid : ℤ))
  | .other _ => none

/-- `compute_criteria_values` of either sort. -/
def computeCriteriaValues (input : SortInput) (activeCriteria : List Criterion)
    (stats : Option StreamStats) (sid : ℤ) : List ℚ :=
  activeCriteria.filterMap (criterionValue input stats sid)

/-- Whether a probe failed or is still to come. -/
def isFailedStatus (status : String) : Bool :=
  status = "failed" || status = "timeout" || status = "pending"

/-- The place of a category among those deprioritized. -/
def failedRank (failedOrder : List String) (category : String) (default : ℕ) : ℕ :=
  ((Dict.ofList failedOrder.zipIdx).get? category).getD default

def defaultSortPriority : List Criterion :=
  [.resolution, .bitrate, .framerate, .videoCodec, .m3uPriority, .audioChannels, .customStreams, .catchup]

def defaultSortEnabled : Dict Criterion Bool :=
  Dict.ofList [(.resolution, true), (.bitrate, true), (.framerate, true), (.videoCodec, false),
    (.m3uPriority, false), (.audioChannels, false), (.customStreams, false), (.catchup, false)]

def defaultFailedOrder : List String := ["failed", "black_screen", "low_fps"]

def activeCriteria (priority : List Criterion) (enabled : Dict Criterion Bool) : List Criterion :=
  priority.filter fun criterion => (enabled.get? criterion).getD false

/-! ### The prober -/

namespace Prober

/-- How failed streams are deprioritized. -/
structure Deprioritize where
  failed : Bool
  blackScreen : Bool
  lowFps : Bool

/-- The account of a stream tells something of it that no probe does. -/
def unprobedValue (input : SortInput) (sid : ℤ) : Criterion → ℚ
  | .m3uPriority => -(accountPriority input.m3uAccountPriorities input.streamM3uMap sid : ℤ)
  | .customStreams => -(isIn input.customStreamIds sid : ℤ)
  | .catchup => -(isIn input.catchupStreamIds sid : ℤ)
  | _ => 0

/-- The value of a criterion of a stream that was probed. -/
def probedValue (input : SortInput) (stats : StreamStats) (sid : ℤ) : Criterion → Option ℚ
  | .resolution => some (-(resolutionValue input.python stats : ℤ))
  | .bitrate => some (-(bitrateValue stats : ℤ))
  | .framerate => some (-framerateValue input.python stats)
  | .m3uPriority => some (-(accountPriority input.m3uAccountPriorities input.streamM3uMap sid : ℤ))
  | .audioChannels => some (-(stats.audioChannels.getD 0 : ℤ))
  | .videoCodec => some (-(getCodecRank input.python stats.videoCodec : ℤ))
  | .customStreams => some (-(isIn input.customStreamIds sid : ℤ))
  | .catchup => some (-(isIn input.catchupStreamIds sid : ℤ))
  | .other _ => none

/-- What a stream is sorted by, but for its id. -/
def sortValue (input : SortInput) (activeCriteria : List Criterion) (statsMap : Dict ℤ StreamStats)
    (deprioritize : Deprioritize) (failedOrder : List String) (sid : ℤ) : List ℚ :=
  let values := computeCriteriaValues input activeCriteria (statsMap.get? sid) sid
  match statsMap.get? sid with
  | none =>
    if deprioritize.failed then 1 :: (failedRank failedOrder "failed" 0 : ℚ) :: values
    else 0 :: 0 :: activeCriteria.map (unprobedValue input sid)
  | some stat =>
    if deprioritize.failed && isFailedStatus stat.probeStatus then
      1 :: (failedRank failedOrder "failed" 0 : ℚ) :: values
    else if deprioritize.failed && deprioritize.blackScreen && stat.isBlackScreen then
      1 :: (failedRank failedOrder "black_screen" 1 : ℚ) :: values
    else if deprioritize.failed && deprioritize.lowFps && stat.isLowFps then
      1 :: (failedRank failedOrder "low_fps" 2 : ℚ) :: values
    else if stat.probeStatus ≠ "success" then
      0 :: 0 :: activeCriteria.map (unprobedValue input sid)
    else 0 :: 0 :: activeCriteria.filterMap (probedValue input stat sid)

/-- `get_sort_value`. -/
def getSortValue (input : SortInput) (activeCriteria : List Criterion) (statsMap : Dict ℤ StreamStats)
    (deprioritize : Deprioritize) (failedOrder : List String) (sid : ℤ) : List ℚ :=
  sortValue input activeCriteria statsMap deprioritize failedOrder sid ++ [(sid : ℚ)]

def smartSortStreams (python : Python) (streamIds : List ℤ) (statsMap : Dict ℤ StreamStats)
    (streamM3uMap : Option (Dict ℤ ℤ)) (streamSortPriority : Option (List Criterion))
    (streamSortEnabled : Option (Dict Criterion Bool)) (m3uAccountPriorities : Option (Dict String ℤ))
    (deprioritize : Deprioritize) (failedStreamSortOrder : Option (List String))
    (customStreamIds catchupStreamIds : Option (Finset ℤ)) : List ℤ :=
  let input : SortInput := ⟨python, m3uAccountPriorities.getD ∅, streamM3uMap.getD ∅,
    customStreamIds.getD ∅, catchupStreamIds.getD ∅⟩
  let active := activeCriteria (streamSortPriority.getD defaultSortPriority)
    (streamSortEnabled.getD defaultSortEnabled)
  sortedOn (getSortValue input active statsMap deprioritize
    (failedStreamSortOrder.getD defaultFailedOrder)) streamIds

end Prober

/-! ### The channel pipeline -/

namespace Engine

/-- The settings of the sort. -/
structure SortSettings where
  streamSortPriority : List Criterion
  streamSortEnabled : Dict Criterion Bool
  deprioritizeFailedStreams : Bool
  m3uAccountPriorities : Dict String ℤ
  failedStreamSortOrder : List String

/-- The account of a stream that was not probed is not looked at. -/
def unprobedValue (input : SortInput) (sid : ℤ) : Criterion → ℚ
  | .customStreams => -(isIn input.customStreamIds sid : ℤ)
  | .catchup => -(isIn input.catchupStreamIds sid : ℤ)
  | _ => 0

def getSortValue (input : SortInput) (settings : SortSettings) (statsCache : Dict ℤ StreamStats)
    (sid : ℤ) : List ℚ :=
  let active := activeCriteria settings.streamSortPriority settings.streamSortEnabled
  let values := computeCriteriaValues input active (statsCache.get? sid) sid
  let rank := failedRank settings.failedStreamSortOrder
  match statsCache.get? sid with
  | none =>
    if settings.deprioritizeFailedStreams then 1 :: (rank "failed" 0 : ℚ) :: values
    else 0 :: 0 :: active.map (unprobedValue input sid)
  | some stats =>
    if settings.deprioritizeFailedStreams && isFailedStatus stats.probeStatus then
      1 :: (rank "failed" 0 : ℚ) :: values
    else if settings.deprioritizeFailedStreams && stats.isBlackScreen then
      1 :: (rank "black_screen" 1 : ℚ) :: values
    else if settings.deprioritizeFailedStreams && stats.isLowFps then
      1 :: (rank "low_fps" 2 : ℚ) :: values
    else if stats.probeStatus ≠ "success" then
      0 :: 0 :: active.map (unprobedValue input sid)
    else 0 :: 0 :: values

/-- Without settings streams are sorted by their height. -/
def fallbackKey (python : Python) (statsCache : Dict ℤ StreamStats) (sid : ℤ) : ℤ :=
  -((statsCache.get? sid).map (resolutionValue python)).getD 0

/-- `_smart_sort_streams` -/
def smartSortStreams (python : Python) (streamIds : List ℤ) (statsCache : Dict ℤ StreamStats)
    (streamM3uMap : Dict ℤ ℤ) (settings : Option SortSettings)
    (customStreamIds catchupStreamIds : Option (Finset ℤ)) : List ℤ :=
  match settings with
  | none => sortedOn (fallbackKey python statsCache) streamIds
  | some settings =>
    let input : SortInput := ⟨python, settings.m3uAccountPriorities, streamM3uMap,
      customStreamIds.getD ∅, catchupStreamIds.getD ∅⟩
    sortedOn (getSortValue input settings statsCache) streamIds

end Engine

end ChannelManager.Probing
