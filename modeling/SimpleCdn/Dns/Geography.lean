import SimpleCdn.Dns.Answers
import Mathlib.Analysis.SpecialFunctions.Trigonometric.Inverse

namespace SimpleCdn
open Real

noncomputable def radians (degrees : ℝ) : ℝ := degrees * (π / 180)

/-- The distance of two locations. Both are given as latitude and longitude,
but the first is taken for two longitudes and the second for two latitudes. -/
noncomputable def distanceBetweenLocations (loc1 loc2 : ℝ × ℝ) : ℝ :=
  let lon1 := radians loc1.1
  let lon2 := radians loc1.2
  let lat1 := radians loc2.1
  let lat2 := radians loc2.2
  let dlon := lon2 - lon1
  let dlat := lat2 - lat1
  let a := sin (dlat / 2) ^ 2 + cos lat1 * cos lat2 * sin (dlon / 2) ^ 2
  let c := 2 * arcsin (√a)
  let r := 6371
  c * r

/-- The great-circle distance in kilometers of two locations, each a latitude
and a longitude. -/
noncomputable def greatCircle (p q : ℝ × ℝ) : ℝ :=
  2 * 6371 * arcsin (√(sin ((radians q.1 - radians p.1) / 2) ^ 2 +
    cos (radians p.1) * cos (radians q.1) * sin ((radians q.2 - radians p.2) / 2) ^ 2))

section Haversine

/-- The cosine of the angle between two points at these latitudes whose
longitudes differ by this much. -/
noncomputable def cosAngle (lat1 lat2 dlon : ℝ) : ℝ := sin lat1 * sin lat2 + cos lat1 * cos lat2 * cos dlon

theorem haversine_eq (lat1 lat2 dlon : ℝ) :
    sin ((lat2 - lat1) / 2) ^ 2 + cos lat1 * cos lat2 * sin (dlon / 2) ^ 2 = (1 - cosAngle lat1 lat2 dlon) / 2 := by
  rw [sin_sq_eq_half_sub, sin_sq_eq_half_sub, mul_div_cancel₀ _ two_ne_zero, mul_div_cancel₀ _ two_ne_zero,
    cos_sub, cosAngle]
  ring

/-- It is between the cosines of the difference and of the sum of the latitudes. -/
theorem cosAngle_mem (lat1 lat2 dlon : ℝ) : cosAngle lat1 lat2 dlon ∈ Set.Icc (-1) 1 := by
  have split : cosAngle lat1 lat2 dlon =
      (1 + cos dlon) / 2 * cos (lat1 - lat2) - (1 - cos dlon) / 2 * cos (lat1 + lat2) := by
    rw [cosAngle, cos_sub, cos_add]
    ring
  have near : 0 ≤ (1 + cos dlon) / 2 := by linarith [neg_one_le_cos dlon]
  have far : 0 ≤ (1 - cos dlon) / 2 := by linarith [cos_le_one dlon]
  rw [split]
  constructor
  · nlinarith [neg_one_le_cos (lat1 - lat2), cos_le_one (lat1 + lat2)]
  · nlinarith [cos_le_one (lat1 - lat2), neg_one_le_cos (lat1 + lat2)]

/-- The larger the cosine, the smaller the distance. -/
theorem arcsin_haversine_le_iff {x y : ℝ} (hx : x ∈ Set.Icc (-1) 1) (hy : y ∈ Set.Icc (-1) 1) :
    arcsin (√((1 - x) / 2)) ≤ arcsin (√((1 - y) / 2)) ↔ y ≤ x := by
  have bounds : ∀ z ∈ Set.Icc (-1 : ℝ) 1, √((1 - z) / 2) ∈ Set.Icc (-1 : ℝ) 1 := by
    rintro z ⟨low, high⟩
    refine ⟨by linarith [sqrt_nonneg ((1 - z) / 2)], sqrt_le_one.mpr (by linarith)⟩
  rw [strictMonoOn_arcsin.le_iff_le (bounds x hx) (bounds y hy), sqrt_le_sqrt_iff (by linarith [hy.2])]
  constructor <;> intro h <;> linarith

end Haversine

/-- How near two locations are, by the cosine of the angle between them. -/
noncomputable def nearness (p q : ℝ × ℝ) : ℝ :=
  cosAngle (radians p.1) (radians q.1) (radians q.2 - radians p.2)

/-- What the program compares instead: it takes the longitude of the second
location for a latitude, and the first location for two longitudes. -/
noncomputable def mixedNearness (p q : ℝ × ℝ) : ℝ :=
  cosAngle (radians q.1) (radians q.2) (radians p.2 - radians p.1)

theorem greatCircle_le_iff (p q r : ℝ × ℝ) :
    greatCircle p q ≤ greatCircle p r ↔ nearness p r ≤ nearness p q := by
  rw [greatCircle, greatCircle, haversine_eq, haversine_eq, mul_le_mul_iff_right₀ (by norm_num)]
  exact arcsin_haversine_le_iff (cosAngle_mem _ _ _) (cosAngle_mem _ _ _)

theorem distanceBetweenLocations_le_iff (p q r : ℝ × ℝ) :
    distanceBetweenLocations p q ≤ distanceBetweenLocations p r ↔ mixedNearness p r ≤ mixedNearness p q := by
  simp only [distanceBetweenLocations]
  rw [haversine_eq, haversine_eq, mul_le_mul_iff_left₀ (by norm_num), mul_le_mul_iff_right₀ (by norm_num)]
  exact arcsin_haversine_le_iff (cosAngle_mem _ _ _) (cosAngle_mem _ _ _)

def locatedAt (coordinates : String → ℝ × ℝ) (ip : String) : Option (Location ℝ) :=
  some ⟨some (coordinates ip).1, some (coordinates ip).2⟩

/-- In whatever order the set of replicas is visited, the one that is found is
as close to the client as any other. -/
def SendsToClosest (coordinates : String → ℝ × ℝ) (sourceIp : String) : Prop :=
  ∀ replicas, replicas.Perm replicaServers → ∀ server : DnsServer, ∃ closest ∈ replicaServers,
    (findClosestReplicaServer (locatedAt coordinates) distanceBetweenLocations replicas sourceIp).run server =
      .ok closest server ∧
    ∀ other ∈ replicaServers,
      greatCircle (coordinates sourceIp) (coordinates closest) ≤
        greatCircle (coordinates sourceIp) (coordinates other)

/-- No replica has a larger measure than this one. -/
def Foremost (coordinates : String → ℝ × ℝ) (measure : ℝ × ℝ → ℝ) (replica : String) : Prop :=
  ∀ other ∈ replicaServers, measure (coordinates other) ≤ measure (coordinates replica)

section Closest
variable (coordinates : String → ℝ × ℝ) (sourceIp : String)

theorem findClosestReplicaServer_located (replicas : List String) (server : DnsServer) :
    (findClosestReplicaServer (locatedAt coordinates) distanceBetweenLocations replicas sourceIp).run server =
      .ok ((replicas.argmin fun repl =>
        distanceBetweenLocations (coordinates sourceIp) (coordinates repl)).getD defaultReplicaServer) server :=
  findClosestReplicaServer_argmin replicas _ _ rfl (fun _ _ => rfl) server

variable {coordinates sourceIp}

/-- A replica that the program takes for the closest is the one it finds when
it comes first in the set. -/
theorem SendsToClosest.foremost (sends : SendsToClosest coordinates sourceIp) {replica : String}
    (member : replica ∈ replicaServers)
    (taken : Foremost coordinates (mixedNearness (coordinates sourceIp)) replica) :
    Foremost coordinates (nearness (coordinates sourceIp)) replica := by
  have order := (List.perm_cons_erase member).symm
  obtain ⟨closest, _, run, least⟩ := sends _ order DnsServer.initial
  have first : replica ∈ (replica :: replicaServers.erase replica).argmin fun repl =>
      distanceBetweenLocations (coordinates sourceIp) (coordinates repl) := by
    refine List.mem_argmin_iff.mpr ⟨List.mem_cons_self .., fun other here => ?_, fun other _ _ => ?_⟩
    · exact (distanceBetweenLocations_le_iff _ _ _).mpr (taken other (order.mem_iff.mp here))
    · rw [List.idxOf_cons_self]
      exact Nat.zero_le _
  rw [findClosestReplicaServer_located, Option.mem_def.mp first] at run
  cases run
  exact fun other here => (greatCircle_le_iff _ _ _).mp (least other here)

/-- New clients go to the closest replica just when each replica that is
foremost with the coordinates mixed up is foremost with them in place. -/
theorem sends_to_closest_iff : SendsToClosest coordinates sourceIp ↔
    ∀ replica ∈ replicaServers,
      Foremost coordinates (mixedNearness (coordinates sourceIp)) replica →
        Foremost coordinates (nearness (coordinates sourceIp)) replica := by
  constructor
  · exact fun sends replica member taken => sends.foremost member taken
  · intro agree replicas order server
    rw [findClosestReplicaServer_located]
    cases least : replicas.argmin fun repl =>
        distanceBetweenLocations (coordinates sourceIp) (coordinates repl) with
    | none =>
      rw [List.argmin_eq_none.mp least] at order
      exact absurd order.length_eq (by decide)
    | some closest =>
      obtain ⟨member, below, _⟩ := List.mem_argmin_iff.mp (Option.mem_def.mpr least)
      have inServers := order.mem_iff.mp member
      have taken : Foremost coordinates (mixedNearness (coordinates sourceIp)) closest :=
        fun other here => (distanceBetweenLocations_le_iff _ _ _).mp (below other (order.mem_iff.mpr here))
      exact ⟨closest, inServers, rfl, fun other here =>
        (greatCircle_le_iff _ _ _).mpr (agree closest inServers taken other here)⟩

end Closest

/-- The client is on the equator, one replica is there too, and all others are
as far north as they are east. -/
def northEast (ip : String) : ℝ × ℝ :=
  if ip = "139.144.30.25" then (0, 60) else if ip ∈ replicaServers then (60, 60) else (0, 0)

theorem radians_zero : radians 0 = 0 := zero_mul _

theorem radians_sixty : radians 60 = π / 3 := by
  rw [radians]
  ring

theorem far_replica_chosen : ¬ SendsToClosest northEast "203.0.113.7" := by
  intro sends
  have client : northEast "203.0.113.7" = (0, 0) := by simp [northEast, replicaServers]
  have onEquator : northEast "139.144.30.25" = (0, 60) := by simp [northEast]
  have far : northEast "173.255.210.124" = (60, 60) := by simp [northEast, replicaServers]
  have most : mixedNearness (0, 0) (60, 60) = 1 := by
    simp only [mixedNearness, cosAngle, radians_zero, radians_sixty, sub_zero, cos_zero, mul_one]
    rw [← sq, ← sq, sin_sq_add_cos_sq]
  have foremost := sends.foremost (show "173.255.210.124" ∈ replicaServers by decide) fun other _ => by
    rw [client, far, most]
    exact (cosAngle_mem _ _ _).2
  have nearer := foremost "139.144.30.25" (by decide)
  rw [client, onEquator, far] at nearer
  simp only [nearness, cosAngle, radians_zero, radians_sixty, sub_zero, sin_zero, cos_zero,
    cos_pi_div_three] at nearer
  norm_num at nearer

end SimpleCdn
