import PolicyReview.Json.Document

/-!
# Sample cases

Three review cases: a bucket that violates two constraints, a network that violates none, and a pod
that is submitted in another form than it is inventoried.  A case is a directory of documents.
-/

namespace PolicyReview
namespace Sample

open Json

/-- A member with a string. -/
def text (key value : String) : String × Document :=
  (key, .string value)

/-- A member with a boolean. -/
def flag (key : String) (value : Bool) : String × Document :=
  (key, .scalar (.bool value))

/-- A member with an object. -/
def object (key : String) (members : List (String × Document)) : String × Document :=
  (key, .object members)

/-- Responses with the given results for one target. -/
def responsesFor (target : String) (results : List Document) : Document :=
  .object [object "byTarget" [object target [text "target" target, ("results", .list results)]]]

/-- The target of inventoried resources. -/
def inventoryTarget : String := "validation.gcp.forsetisecurity.org"

/-- The target of admission reviews. -/
def admissionTarget : String := "admission.k8s.gatekeeper.sh"

/-- The name of the bucket. -/
def bucketName : String := "//storage.googleapis.com/my-audit-logs"

/-- The bucket as inventoried. -/
def bucket : Document :=
  .object [
    text "name" bucketName,
    text "asset_type" "storage.googleapis.com/Bucket",
    text "ancestry_path" "organizations/1234/projects/audit-project",
    object "resource" [
      text "version" "v1",
      text "discovery_name" "Bucket",
      text "parent" "//cloudresourcemanager.googleapis.com/projects/68478495408",
      object "data" [
        text "name" "my-audit-logs",
        text "location" "US",
        text "storageClass" "STANDARD",
        object "versioning" [flag "enabled" false],
        object "iamConfiguration" [object "bucketPolicyOnly" [flag "enabled" false]]]]]

/-- A constraint on buckets. -/
def bucketConstraint (kind name : String) : String × Document :=
  object "constraint" [
    text "apiVersion" "constraints.gatekeeper.sh/v1alpha1",
    text "kind" kind,
    text "name" name]

/-- A value of each kind of scalar. -/
def bucketChecks : List Document :=
  [.scalar (.number (.natural 1)),
    .scalar (.number (.float (Binary64.ofBits 0x4004000000000000) (by decide))),
    .scalar .null,
    .string "policy"]

/-- The responses for the bucket. -/
def bucketResponses : Document :=
  responsesFor inventoryTarget [
    .object [
      text "msg" (bucketName ++ " does not have versioning enabled."),
      object "metadata" [object "details" [text "resource" bucketName]],
      bucketConstraint "GCPStorageBucketVersioningConstraintV1" "require-bucket-versioning"],
    .object [
      text "msg" (bucketName ++ " does not have bucket policy only enabled."),
      object "metadata" [object "details" [flag "enabled" false, ("checks", .list bucketChecks)]],
      bucketConstraint "GCPStorageBucketPolicyOnlyConstraintV1" "require-bucket-policy-only"]]

/-- The network as inventoried. -/
def network : Document :=
  .object [
    text "name" "//compute.googleapis.com/projects/net-project/global/networks/default",
    text "asset_type" "compute.googleapis.com/Network",
    object "resource" [object "data" [flag "autoCreateSubnetworks" false]]]

/-- The responses for the network. -/
def networkResponses : Document :=
  responsesFor inventoryTarget []

/-- The members of the pod as submitted. -/
def podMembers : List (String × Document) :=
  [text "apiVersion" "v1",
    text "kind" "Pod",
    object "metadata" [text "name" "web", text "namespace" "default"],
    object "spec" [flag "hostNetwork" true]]

/-- The pod as inventoried. -/
def pod : Document :=
  .object [
    text "name" ("//container.googleapis.com/projects/p/zones/us-central1-a/clusters/c/k8s/" ++
      "namespaces/default/pods/web"),
    text "asset_type" "k8s.io/Pod",
    object "resource" [object "data" podMembers]]

/-- The responses for the pod, whose constraint is written as an object. -/
def podResponses : Document :=
  responsesFor admissionTarget [
    .object [
      text "msg" "pod web uses the host network",
      object "metadata" [object "details" [flag "hostNetwork" true]],
      object "constraint" [
        text "apiVersion" "constraints.gatekeeper.sh/v1beta1",
        text "kind" "K8sPSPHostNetworkingPorts",
        object "metadata" [text "name" "psp-host-network"],
        object "spec" [object "match" [("kinds", .list [.object [
          ("apiGroups", .list [.string ""]), ("kinds", .list [.string "Pod"])]])]]]]]

/-- The cases, each a directory of documents under their file names. -/
def cases : List (String × List (String × Document)) :=
  [("bucket_violations", [("cai.json", bucket), ("responses.json", bucketResponses)]),
    ("clean_network", [("cai.json", network), ("responses.json", networkResponses)]),
    ("gke_pod", [("cai.json", pod), ("review.json", .object podMembers),
      ("responses.json", podResponses)])]

end Sample
end PolicyReview
