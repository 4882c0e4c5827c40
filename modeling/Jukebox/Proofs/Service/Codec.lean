import Jukebox.Proofs.Json.Codec
import Jukebox.Proofs.Map
import Jukebox.Proofs.Time.Instant
import Jukebox.Proofs.Uuid
import Jukebox.Service.Basic

/-!
What is stored is read back from its documents: paths, plays and flags, playlists with their items
and positions, and cursors.
-/

namespace Jukebox

open Json (Reads Decoder record_ofJson)

/-! ### Paths, flags and plays -/

theorem Key.reads (key : Key) : Reads Key.decoder .string 0 key := fun _ _ => rfl

theorem Path.reads (path : Path) : Reads Path.decoder Path.toJson 1 path :=
  Reads.list fun key _ => key.reads

theorem Flags.reads (flags : Flags) : Reads Flags.decoder Flags.toJson 2 flags := by
  intro depth hdepth
  have hpaths := (Reads.list fun path (_ : path ∈ flags.toList) => path.reads) depth hdepth
  have hflags : Std.ExtTreeSet.ofList flags.toList = flags := by
    refine Std.ExtTreeSet.ext_mem fun path => ?_
    rw [Std.ExtTreeSet.mem_ofList, List.contains_iff_mem, Std.ExtTreeSet.mem_toList]
  simp [Flags.decoder, Flags.toJson, hpaths, hflags]

theorem Time.Instant.reads (time : Time.Instant) :
    Reads Time.Instant.decoder Time.Instant.toJson 0 time := by
  intro depth _
  have htime := time.ofText?_text
  simp [Time.Instant.decoder, Time.Instant.toJson, Json.Source.ofJson, Decoder.string, htime]

theorem Play.reads (play : Play) : Reads Play.decoder Play.toJson 2 play := by
  rintro (_ | depth) hdepth
  · omega
  · have hpath := play.path.reads depth (by omega)
    have htime := play.playedAt.reads depth (by omega)
    rw [Play.decoder, Play.toJson, record_ofJson (by simp [Json.Fit]) (by simp) depth]
    simp [Json.slots, hpath, htime]

theorem History.reads (history : History) : Reads History.decoder History.toJson 3 history :=
  Reads.list fun play _ => play.reads

/-! ### Playlists -/

theorem Uuid.reads (id : Uuid) : Reads Uuid.decoder Uuid.toJson 0 id := by
  intro depth _
  have hid := id.ofText?_text
  simp [Uuid.decoder, Uuid.toJson, Json.Source.ofJson, Decoder.string, hid]

namespace Playlist

theorem Item.reads_node (node : Path × List Key) : Reads Item.nodeDecoder Item.nodeJson 2 node := by
  rintro (_ | depth) hdepth
  · omega
  · have hpath := node.1.reads depth (by omega)
    have hkeys := (Reads.list fun key (_ : key ∈ node.2) => key.reads) depth (by omega)
    rw [nodeDecoder, nodeJson, record_ofJson (by simp [Json.Fit]) (by simp) depth]
    simp [Json.slots, hpath, hkeys]

theorem Item.reads (item : Item) : Reads Item.decoder Item.toJson 4 item := by
  rintro (_ | depth) hdepth
  · omega
  · have hid := item.id.reads depth (by omega)
    have hroot := item.root.reads depth (by omega)
    have hnodes := (Reads.list fun node (_ : node ∈ item.nodes.toList) => reads_node node) depth
      (by omega)
    have htracks := (Reads.list fun track (_ : track ∈ item.tracks) => track.reads) depth (by omega)
    rw [decoder, toJson, record_ofJson (by simp [Json.Fit]) (by simp) depth]
    simp [Json.slots, hid, hroot, hnodes, htracks, Map.ofList_toList]

theorem Position.reads (position : Position) :
    Reads Position.decoder Position.toJson 1 position := by
  rintro (_ | depth) hdepth
  · omega
  · have hitem := Json.reads_natural position.item depth (by omega)
    have htrack := Json.reads_natural position.track depth (by omega)
    rw [decoder, toJson, record_ofJson (by simp [Json.Fit]) (by simp) depth]
    simp [Json.slots, hitem, htrack]

theorem reads (playlist : Playlist) : Reads Playlist.decoder Playlist.toJson 6 playlist := by
  rintro (_ | depth) hdepth
  · omega
  · have hitems := (Reads.list fun item (_ : item ∈ playlist.items) => item.reads) depth (by omega)
    have hcurrent := (Reads.optional (by simp [Position.toJson])
      fun position (_ : position ∈ playlist.current) => position.reads) depth (by omega)
    rw [decoder, toJson, record_ofJson (by simp [Json.Fit]) (by simp) depth]
    simp [Json.slots, hitems, hcurrent]

theorem Store.reads_members (store : Store) (depth : Nat) (hdepth : 7 ≤ depth) :
    Decoder.members Playlist.decoder depth (.ofJson store.toJson) = some store.toList :=
  (Reads.members fun entry (_ : entry ∈ store.toList) => entry.2.reads) depth hdepth

end Playlist

/-! ### Cursors -/

theorem Cursor.reads (cursor : Cursor) : Reads Cursor.decoder Cursor.toJson 2 cursor := by
  rintro (_ | depth) hdepth
  · omega
  · have hcurrent := (Reads.optional (by simp [Path.toJson, Json.list])
      fun path (_ : path ∈ cursor.current) => path.reads) depth (by omega)
    rw [decoder, toJson, record_ofJson (by simp [Json.Fit]) (by simp) depth]
    simp [Json.slots, hcurrent]

theorem Cursor.Store.reads (store : Cursor.Store) :
    Reads Cursor.Store.decoder Cursor.Store.toJson 3 store := by
  intro depth hdepth
  have hmembers := (Reads.members fun entry (_ : entry ∈ store.toList) => entry.2.reads) depth
    hdepth
  rw [decoder, toJson, hmembers]
  simp [Map.ofList_toList]

end Jukebox
