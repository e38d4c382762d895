import PeerRelay.Fleet.Sweep

/-!
What a harvest holds. Of the rooms that were filed it has each id once, as it was filed first; they
are found in the order of filing under no preference and under the regions of their nodes.
-/
namespace PeerRelay

namespace ListedRoom

def id (room : ListedRoom) : String := room.listing.serverId

/-- Of rooms with one id the first. -/
def firsts : List ListedRoom → List ListedRoom
  | [] => []
  | room :: rest => room :: (firsts rest).filter (·.id ≠ room.id)

variable {rooms : List ListedRoom} {key : String}

theorem firsts_sublist (rooms : List ListedRoom) : (firsts rooms).Sublist rooms := by
  induction rooms with
  | nil => exact List.Sublist.refl _
  | cons room rest ih => exact (List.filter_sublist.trans ih).cons_cons room

theorem firsts_complete (found : ∃ room ∈ rooms, room.id = key) :
    ∃ room ∈ firsts rooms, room.id = key := by
  induction rooms with
  | nil => simp at found
  | cons room rest ih =>
    by_cases here : room.id = key
    · exact ⟨room, List.mem_cons_self, here⟩
    · obtain ⟨other, member, same⟩ := found
      rcases List.mem_cons.mp member with rfl | later
      · exact (here same).elim
      · obtain ⟨first, member, same⟩ := ih ⟨other, later, same⟩
        refine ⟨first, List.mem_cons_of_mem _ (List.mem_filter.mpr ⟨member, ?_⟩), same⟩
        simpa [same] using Ne.symm here

theorem firsts_begins (rooms more : List ListedRoom) : firsts rooms <+: firsts (rooms ++ more) := by
  induction rooms with
  | nil => exact List.nil_prefix
  | cons room rest ih => exact (List.prefix_cons_inj room).mpr (ih.filter _)

theorem firsts_of_nodup (distinct : (rooms.map id).Nodup) : firsts rooms = rooms := by
  induction rooms with
  | nil => rfl
  | cons room rest ih =>
    obtain ⟨other, distinct⟩ := List.nodup_cons.mp distinct
    rw [firsts, ih distinct, List.filter_eq_self.mpr]
    intro later member
    have differs : later.id ≠ room.id := fun same => other (same ▸ List.mem_map_of_mem member)
    simpa using differs

end ListedRoom

namespace Harvest
open ListedRoom

variable {h : Harvest} {node : RelayAddress} {listing : RoomListing} {region : Region}

theorem add_ids (h : Harvest) (node : RelayAddress) (listing : RoomListing) :
    (h.add node listing).ids = h.ids.insert listing.serverId := by
  unfold add
  split
  · rename_i seen
    apply Std.ExtTreeSet.ext_contains
    intro id
    rw [Std.ExtTreeSet.contains_insert]
    by_cases same : listing.serverId = id
    · rw [← same, seen]
      simp
    · simp [same]
  · split <;> rfl

theorem put_bucket_eq (h : Harvest) (r region : Region) (room : ListedRoom) :
    (h.put r room).bucket region =
      if region = r then h.bucket region ++ [room] else h.bucket region := by
  simp only [put, bucket, Std.ExtTreeMap.getD_insert]
  by_cases same : r = region
  · subst same
    simp
  · simp [same, Ne.symm same]

def Files (node : RelayAddress) (region : Region) : Prop := region = .any ∨ region = node.region

instance (node : RelayAddress) (region : Region) : Decidable (Files node region) :=
  inferInstanceAs (Decidable (_ ∨ _))

theorem add_seen (seen : h.ids.contains listing.serverId = true) : h.add node listing = h :=
  if_pos seen

theorem add_bucket_eq (new : h.ids.contains listing.serverId = false) :
    (h.add node listing).bucket region =
      if Files node region then h.bucket region ++ [⟨node, listing⟩] else h.bucket region := by
  unfold add
  rw [new]
  simp only [Bool.false_eq_true, if_false, put_bucket_eq]
  by_cases any : region = .any
  · -- the bucket of the region of the node is another one, if it is filled at all
    subst any
    rw [if_pos rfl, if_pos (show Files node .any from Or.inl rfl)]
    split
    · rfl
    · rename_i specific
      rw [put_bucket_eq, if_neg (Ne.symm specific)]
      rfl
  · rw [if_neg any]
    by_cases own : region = node.region
    · rw [if_pos (show Files node region from Or.inr own), if_neg (own ▸ any), put_bucket_eq,
        if_pos own]
      rfl
    · rw [if_neg (show ¬ Files node region from not_or.mpr ⟨any, own⟩)]
      split
      · rfl
      · rw [put_bucket_eq, if_neg own]
        rfl

def file (h : Harvest) (rooms : List ListedRoom) : Harvest :=
  rooms.foldl (fun h room => h.add room.node room.listing) h

theorem addAll_eq_file (h : Harvest) (node : RelayAddress) (listings : List RoomListing) :
    h.addAll node listings = h.file (listings.map fun listing => ⟨node, listing⟩) := by
  rw [addAll, file, List.foldl_map]

theorem file_append (h : Harvest) (rooms more : List ListedRoom) :
    h.file (rooms ++ more) = (h.file rooms).file more :=
  List.foldl_append

theorem file_ids_contains {rooms : List ListedRoom} {key : String} :
    (h.file rooms).ids.contains key = true ↔
      h.ids.contains key = true ∨ ∃ room ∈ rooms, room.id = key := by
  induction rooms generalizing h with
  | nil => simp [file]
  | cons first rest ih =>
    have later := ih (h := h.add first.node first.listing)
    rw [file] at later
    rw [file, List.foldl_cons, later, add_ids, Std.ExtTreeSet.contains_insert]
    simp [ListedRoom.id, or_assoc, or_left_comm]

theorem addAll_ids_contains {listings : List RoomListing} {key : String} :
    (h.addAll node listings).ids.contains key = true ↔
      h.ids.contains key = true ∨ ∃ listing ∈ listings, listing.serverId = key := by
  rw [addAll_eq_file, file_ids_contains]
  refine or_congr_right ⟨?_, ?_⟩
  · rintro ⟨room, member, same⟩
    obtain ⟨listing, listed, rfl⟩ := List.mem_map.mp member
    exact ⟨listing, listed, same⟩
  · rintro ⟨listing, listed, same⟩
    exact ⟨⟨node, listing⟩, List.mem_map_of_mem listed, same⟩

/-- Every list gets, in order, the first room of each new id that is filed under its region. -/
theorem file_bucket (h : Harvest) (rooms : List ListedRoom) (region : Region) :
    (h.file rooms).bucket region = h.bucket region ++ (firsts rooms).filter fun room =>
      Files room.node region ∧ h.ids.contains room.id = false := by
  induction rooms generalizing h with
  | nil => simp [file, firsts]
  | cons first rest ih =>
    have later := ih (h.add first.node first.listing)
    rw [file] at later
    rw [file, List.foldl_cons, later, firsts, List.filter_cons, List.filter_filter]
    cases seen : h.ids.contains first.id with
    | true =>
      rw [add_seen seen, if_neg (by simp)]
      refine congrArg (h.bucket region ++ ·) (List.filter_congr fun room _ => ?_)
      by_cases same : room.id = first.id
      · simp [same, seen]
      · simp [same]
    | false =>
      have next (room : ListedRoom) :
          decide (Files room.node region ∧
              (h.add first.node first.listing).ids.contains room.id = false) =
            (decide (Files room.node region ∧ h.ids.contains room.id = false) &&
              decide (room.id ≠ first.id)) := by
        rw [add_ids, Std.ExtTreeSet.contains_insert]
        by_cases same : room.id = first.id
        · simp [same, show first.listing.serverId = first.id from rfl]
        · simp [same, show first.listing.serverId ≠ room.id from Ne.symm same]
      simp only [next, add_bucket_eq seen]
      by_cases files : Files first.node region
      · rw [if_pos files, if_pos (by simp [files]), List.append_assoc, List.singleton_append]
      · rw [if_neg files, if_neg (by simp [files])]

theorem file_empty_bucket (rooms : List ListedRoom) (region : Region) :
    (empty.file rooms).bucket region = (firsts rooms).filter (Files ·.node region) := by
  rw [file_bucket]
  simp [empty, bucket]

theorem file_empty_ids {rooms : List ListedRoom} {key : String} :
    (empty.file rooms).ids.contains key = true ↔ ∃ room ∈ rooms, room.id = key := by
  rw [file_ids_contains]
  simp [empty]

theorem addAll_empty (files : Files node region) {listings : List RoomListing}
    (distinct : (listings.map RoomListing.serverId).Nodup) :
    (empty.addAll node listings).bucket region =
      listings.map fun listing => ⟨node, listing⟩ := by
  rw [addAll_eq_file, file_empty_bucket, firsts_of_nodup (by rwa [List.map_map]),
    List.filter_eq_self.mpr]
  intro room member
  obtain ⟨listing, -, rfl⟩ := List.mem_map.mp member
  exact decide_eq_true files

end Harvest

end PeerRelay
