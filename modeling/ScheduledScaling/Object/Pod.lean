import ScheduledScaling.Object.Metadata
/-!
The shape of a pod's template inside a workload. The operator never looks into it, but has to
write back what it read.
-/
namespace ScheduledScaling

/-- A value that counts as some default when it is missing or null. -/
def Entry.filled (key : String) (value : Json) (shape : Shape) : Entry Shape :=
  ⟨key, .filled value, shape⟩

namespace Pod

def record (name : String) (entries : List (Entry Shape)) : Shape := .record name .lenient entries

def optional (key : String) (shape : Shape) : Entry Shape := Entry.optional key shape

def text (key : String) : Entry Shape := optional key .string

def needed (key : String) : Entry Shape := Entry.filledText key

def flag (key : String) : Entry Shape := optional key .bool

def small (key : String) : Entry Shape := optional key .i32

def large (key : String) : Entry Shape := optional key .i64

def texts (key : String) : Entry Shape := optional key .strings

def textMap (key : String) : Entry Shape := optional key .stringMap

def listOf (key : String) (item : Shape) : Entry Shape := optional key (.list item)

/-! ## Selectors and references -/

def labelSelector : Shape :=
  record "LabelSelector"
    [listOf "matchExpressions"
        (record "LabelSelectorRequirement" [needed "key", needed "operator", texts "values"]),
      textMap "matchLabels"]

def localReference : Shape := record "LocalObjectReference" [needed "name"]

def secretReference : Entry Shape := optional "secretRef" localReference

def keyToPath : Shape := record "KeyToPath" [needed "key", small "mode", needed "path"]

def fieldSelector : Shape := record "ObjectFieldSelector" [text "apiVersion", needed "fieldPath"]

def resourceFieldSelector : Shape :=
  record "ResourceFieldSelector" [text "containerName", text "divisor", needed "resource"]

/-! ## Containers -/

def environment : Shape :=
  record "EnvVar"
    [needed "name", text "value",
      optional "valueFrom" (record "EnvVarSource"
        [optional "configMapKeyRef"
            (record "ConfigMapKeySelector" [needed "key", needed "name", flag "optional"]),
          optional "fieldRef" fieldSelector, optional "resourceFieldRef" resourceFieldSelector,
          optional "secretKeyRef"
            (record "SecretKeySelector" [needed "key", needed "name", flag "optional"])])]

def environmentFrom : Shape :=
  record "EnvFromSource"
    [optional "configMapRef" (record "ConfigMapEnvSource" [needed "name", flag "optional"]),
      text "prefix",
      optional "secretRef" (record "SecretEnvSource" [needed "name", flag "optional"])]

def probePort : Entry Shape := Entry.filled "port" (.int 0) .intOrString

def execAction : Entry Shape := optional "exec" (record "ExecAction" [texts "command"])

def httpAction : Entry Shape :=
  optional "httpGet" (record "HTTPGetAction"
    [text "host",
      listOf "httpHeaders" (record "HTTPHeader" [needed "name", needed "value"]), text "path",
      probePort, text "scheme"])

def socketAction : Entry Shape :=
  optional "tcpSocket" (record "TCPSocketAction" [text "host", probePort])

def lifecycleHandler : Shape :=
  record "LifecycleHandler"
    [execAction, httpAction,
      optional "sleep" (record "SleepAction" [Entry.filled "seconds" (.int 0) .i64]),
      socketAction]

def lifecycle : Shape :=
  record "Lifecycle"
    [optional "postStart" lifecycleHandler, optional "preStop" lifecycleHandler]

def probe : Shape :=
  record "Probe"
    [execAction, small "failureThreshold",
      optional "grpc"
        (record "GRPCAction" [Entry.filled "port" (.int 0) .i32, text "service"]),
      httpAction, small "initialDelaySeconds", small "periodSeconds", small "successThreshold",
      socketAction, large "terminationGracePeriodSeconds", small "timeoutSeconds"]

def resources : Shape :=
  record "ResourceRequirements"
    [listOf "claims" (record "ResourceClaim" [needed "name", text "request"]),
      textMap "limits", textMap "requests"]

def appArmor : Entry Shape :=
  optional "appArmorProfile" (record "AppArmorProfile" [text "localhostProfile", needed "type"])

def seLinux : Entry Shape :=
  optional "seLinuxOptions"
    (record "SELinuxOptions" [text "level", text "role", text "type", text "user"])

def seccomp : Entry Shape :=
  optional "seccompProfile" (record "SeccompProfile" [text "localhostProfile", needed "type"])

def windows : Entry Shape :=
  optional "windowsOptions" (record "WindowsSecurityContextOptions"
    [text "gmsaCredentialSpec", text "gmsaCredentialSpecName", flag "hostProcess",
      text "runAsUserName"])

def containerSecurity : Shape :=
  record "SecurityContext"
    [flag "allowPrivilegeEscalation", appArmor,
      optional "capabilities" (record "Capabilities" [texts "add", texts "drop"]),
      flag "privileged", text "procMount", flag "readOnlyRootFilesystem", large "runAsGroup",
      flag "runAsNonRoot", large "runAsUser", seLinux, seccomp, windows]

def containerPort : Shape :=
  record "ContainerPort"
    [Entry.filled "containerPort" (.int 0) .i32, text "hostIP", small "hostPort", text "name",
      text "protocol"]

def volumeMount : Shape :=
  record "VolumeMount"
    [needed "mountPath", text "mountPropagation", needed "name", flag "readOnly",
      text "recursiveReadOnly", text "subPath", text "subPathExpr"]

def containerEntries : List (Entry Shape) :=
  [texts "args", texts "command", listOf "env" environment, listOf "envFrom" environmentFrom,
    text "image", text "imagePullPolicy", optional "lifecycle" lifecycle,
    optional "livenessProbe" probe, needed "name", listOf "ports" containerPort,
    optional "readinessProbe" probe,
    listOf "resizePolicy"
      (record "ContainerResizePolicy" [needed "resourceName", needed "restartPolicy"]),
    optional "resources" resources, text "restartPolicy",
    optional "securityContext" containerSecurity, optional "startupProbe" probe, flag "stdin",
    flag "stdinOnce", text "terminationMessagePath", text "terminationMessagePolicy", flag "tty",
    listOf "volumeDevices" (record "VolumeDevice" [needed "devicePath", needed "name"]),
    listOf "volumeMounts" volumeMount, text "workingDir"]

def container : Shape := record "Container" containerEntries

def ephemeralContainer : Shape :=
  record "EphemeralContainer" (containerEntries ++ [text "targetContainerName"])

/-! ## Volumes -/

def volumeClaimSpec : Shape :=
  record "PersistentVolumeClaimSpec"
    [texts "accessModes",
      optional "dataSource"
        (record "TypedLocalObjectReference" [text "apiGroup", needed "kind", needed "name"]),
      optional "dataSourceRef"
        (record "TypedObjectReference"
          [text "apiGroup", needed "kind", needed "name", text "namespace"]),
      optional "resources"
        (record "VolumeResourceRequirements" [textMap "limits", textMap "requests"]),
      optional "selector" labelSelector, text "storageClassName",
      text "volumeAttributesClassName", text "volumeMode", text "volumeName"]

def volumeClaimStatus : Shape :=
  record "PersistentVolumeClaimStatus"
    [texts "accessModes", textMap "allocatedResourceStatuses", textMap "allocatedResources",
      textMap "capacity",
      listOf "conditions" (record "PersistentVolumeClaimCondition"
        [optional "lastProbeTime" (.time true), optional "lastTransitionTime" (.time true),
          text "message", text "reason", needed "status", needed "type"]),
      text "currentVolumeAttributesClassName",
      optional "modifyVolumeStatus" (record "ModifyVolumeStatus"
        [needed "status", text "targetVolumeAttributesClassName"]),
      text "phase"]

/-- The fields of every object: its version and kind have to be the expected ones. -/
def objectEntries (apiVersion kind : String) : List (Entry Shape) :=
  [⟨"apiVersion", .byDefault (.string apiVersion), .constant apiVersion apiVersion⟩,
    ⟨"kind", .byDefault (.string kind), .constant kind kind⟩,
    Entry.filled "metadata" (.object []) ObjectMeta.shape]

def volumeClaim : Shape :=
  record "PersistentVolumeClaim"
    (objectEntries "v1" "PersistentVolumeClaim" ++
      [optional "spec" volumeClaimSpec, optional "status" volumeClaimStatus])

def downwardFiles : Entry Shape :=
  listOf "items" (record "DownwardAPIVolumeFile"
    [optional "fieldRef" fieldSelector, small "mode", needed "path",
      optional "resourceFieldRef" resourceFieldSelector])

def projection : Shape :=
  record "VolumeProjection"
    [optional "clusterTrustBundle" (record "ClusterTrustBundleProjection"
        [optional "labelSelector" labelSelector, text "name", flag "optional", needed "path",
          text "signerName"]),
      optional "configMap" (record "ConfigMapProjection"
        [listOf "items" keyToPath, needed "name", flag "optional"]),
      optional "downwardAPI" (record "DownwardAPIProjection" [downwardFiles]),
      optional "secret" (record "SecretProjection"
        [listOf "items" keyToPath, needed "name", flag "optional"]),
      optional "serviceAccountToken" (record "ServiceAccountTokenProjection"
        [text "audience", large "expirationSeconds", needed "path"])]

def monitors : Entry Shape := Entry.filled "monitors" (.array []) .strings

def volume : Shape :=
  record "Volume"
    [optional "awsElasticBlockStore" (record "AWSElasticBlockStoreVolumeSource"
        [text "fsType", small "partition", flag "readOnly", needed "volumeID"]),
      optional "azureDisk" (record "AzureDiskVolumeSource"
        [text "cachingMode", needed "diskName", needed "diskURI", text "fsType", text "kind",
          flag "readOnly"]),
      optional "azureFile" (record "AzureFileVolumeSource"
        [flag "readOnly", needed "secretName", needed "shareName"]),
      optional "cephfs" (record "CephFSVolumeSource"
        [monitors, text "path", flag "readOnly", text "secretFile", secretReference,
          text "user"]),
      optional "cinder" (record "CinderVolumeSource"
        [text "fsType", flag "readOnly", secretReference, needed "volumeID"]),
      optional "configMap" (record "ConfigMapVolumeSource"
        [small "defaultMode", listOf "items" keyToPath, needed "name", flag "optional"]),
      optional "csi" (record "CSIVolumeSource"
        [needed "driver", text "fsType", optional "nodePublishSecretRef" localReference,
          flag "readOnly", textMap "volumeAttributes"]),
      optional "downwardAPI"
        (record "DownwardAPIVolumeSource" [small "defaultMode", downwardFiles]),
      optional "emptyDir" (record "EmptyDirVolumeSource" [text "medium", text "sizeLimit"]),
      optional "ephemeral" (record "EphemeralVolumeSource"
        [optional "volumeClaimTemplate" (record "PersistentVolumeClaimTemplate"
          [optional "metadata" ObjectMeta.shape,
            Entry.filled "spec" (.object []) volumeClaimSpec])]),
      optional "fc" (record "FCVolumeSource"
        [text "fsType", small "lun", flag "readOnly", texts "targetWWNs", texts "wwids"]),
      optional "flexVolume" (record "FlexVolumeSource"
        [needed "driver", text "fsType", textMap "options", flag "readOnly", secretReference]),
      optional "flocker"
        (record "FlockerVolumeSource" [text "datasetName", text "datasetUUID"]),
      optional "gcePersistentDisk" (record "GCEPersistentDiskVolumeSource"
        [text "fsType", small "partition", needed "pdName", flag "readOnly"]),
      optional "gitRepo" (record "GitRepoVolumeSource"
        [text "directory", needed "repository", text "revision"]),
      optional "glusterfs" (record "GlusterfsVolumeSource"
        [needed "endpoints", needed "path", flag "readOnly"]),
      optional "hostPath" (record "HostPathVolumeSource" [needed "path", text "type"]),
      optional "image" (record "ImageVolumeSource" [text "pullPolicy", text "reference"]),
      optional "iscsi" (record "ISCSIVolumeSource"
        [flag "chapAuthDiscovery", flag "chapAuthSession", text "fsType", text "initiatorName",
          needed "iqn", text "iscsiInterface", Entry.filled "lun" (.int 0) .i32,
          texts "portals", flag "readOnly", secretReference, needed "targetPortal"]),
      needed "name",
      optional "nfs"
        (record "NFSVolumeSource" [needed "path", flag "readOnly", needed "server"]),
      optional "persistentVolumeClaim" (record "PersistentVolumeClaimVolumeSource"
        [needed "claimName", flag "readOnly"]),
      optional "photonPersistentDisk"
        (record "PhotonPersistentDiskVolumeSource" [text "fsType", needed "pdID"]),
      optional "portworxVolume" (record "PortworxVolumeSource"
        [text "fsType", flag "readOnly", needed "volumeID"]),
      optional "projected" (record "ProjectedVolumeSource"
        [small "defaultMode", listOf "sources" projection]),
      optional "quobyte" (record "QuobyteVolumeSource"
        [text "group", flag "readOnly", needed "registry", text "tenant", text "user",
          needed "volume"]),
      optional "rbd" (record "RBDVolumeSource"
        [text "fsType", needed "image", text "keyring", monitors, text "pool", flag "readOnly",
          secretReference, text "user"]),
      optional "scaleIO" (record "ScaleIOVolumeSource"
        [text "fsType", needed "gateway", text "protectionDomain", flag "readOnly",
          Entry.filled "secretRef" (.object [("name", .string "")]) localReference,
          flag "sslEnabled", text "storageMode", text "storagePool", needed "system",
          text "volumeName"]),
      optional "secret" (record "SecretVolumeSource"
        [small "defaultMode", listOf "items" keyToPath, flag "optional", text "secretName"]),
      optional "storageos" (record "StorageOSVolumeSource"
        [text "fsType", flag "readOnly", secretReference, text "volumeName",
          text "volumeNamespace"]),
      optional "vsphereVolume" (record "VsphereVirtualDiskVolumeSource"
        [text "fsType", text "storagePolicyID", text "storagePolicyName",
          needed "volumePath"])]

/-! ## Placement -/

def nodeSelectorTerm : Shape :=
  let requirement := record "NodeSelectorRequirement"
    [needed "key", needed "operator", texts "values"]
  record "NodeSelectorTerm"
    [listOf "matchExpressions" requirement, listOf "matchFields" requirement]

def nodeAffinity : Shape :=
  record "NodeAffinity"
    [listOf "preferredDuringSchedulingIgnoredDuringExecution" (record "PreferredSchedulingTerm"
        [Entry.filled "preference" (.object []) nodeSelectorTerm,
          Entry.filled "weight" (.int 0) .i32]),
      optional "requiredDuringSchedulingIgnoredDuringExecution" (record "NodeSelector"
        [Entry.filled "nodeSelectorTerms" (.array []) (.list nodeSelectorTerm)])]

def podAffinityTerm : Shape :=
  record "PodAffinityTerm"
    [optional "labelSelector" labelSelector, texts "matchLabelKeys", texts "mismatchLabelKeys",
      optional "namespaceSelector" labelSelector, texts "namespaces", needed "topologyKey"]

def podAffinity (name : String) : Shape :=
  record name
    [listOf "preferredDuringSchedulingIgnoredDuringExecution" (record "WeightedPodAffinityTerm"
        [Entry.filled "podAffinityTerm" (.object [("topologyKey", .string "")]) podAffinityTerm,
          Entry.filled "weight" (.int 0) .i32]),
      listOf "requiredDuringSchedulingIgnoredDuringExecution" podAffinityTerm]

def affinity : Shape :=
  record "Affinity"
    [optional "nodeAffinity" nodeAffinity, optional "podAffinity" (podAffinity "PodAffinity"),
      optional "podAntiAffinity" (podAffinity "PodAntiAffinity")]

def topologySpread : Shape :=
  record "TopologySpreadConstraint"
    [optional "labelSelector" labelSelector, texts "matchLabelKeys",
      Entry.filled "maxSkew" (.int 0) .i32, small "minDomains", text "nodeAffinityPolicy",
      text "nodeTaintsPolicy", needed "topologyKey", needed "whenUnsatisfiable"]

def podSecurity : Shape :=
  record "PodSecurityContext"
    [appArmor, large "fsGroup", text "fsGroupChangePolicy", large "runAsGroup",
      flag "runAsNonRoot", large "runAsUser", text "seLinuxChangePolicy", seLinux, seccomp,
      listOf "supplementalGroups" .i64, text "supplementalGroupsPolicy",
      listOf "sysctls" (record "Sysctl" [needed "name", needed "value"]), windows]

/-! ## Pods -/

def spec : Shape :=
  record "PodSpec"
    [large "activeDeadlineSeconds", optional "affinity" affinity,
      flag "automountServiceAccountToken",
      Entry.filled "containers" (.array []) (.list container),
      optional "dnsConfig" (record "PodDNSConfig"
        [texts "nameservers",
          listOf "options" (record "PodDNSConfigOption" [text "name", text "value"]),
          texts "searches"]),
      text "dnsPolicy", flag "enableServiceLinks",
      listOf "ephemeralContainers" ephemeralContainer,
      listOf "hostAliases" (record "HostAlias" [texts "hostnames", needed "ip"]),
      flag "hostIPC", flag "hostNetwork", flag "hostPID", flag "hostUsers", text "hostname",
      listOf "imagePullSecrets" localReference, listOf "initContainers" container,
      text "nodeName", textMap "nodeSelector", optional "os" (record "PodOS" [needed "name"]),
      textMap "overhead", text "preemptionPolicy", small "priority", text "priorityClassName",
      listOf "readinessGates" (record "PodReadinessGate" [needed "conditionType"]),
      listOf "resourceClaims" (record "PodResourceClaim"
        [needed "name", text "resourceClaimName", text "resourceClaimTemplateName"]),
      optional "resources" resources, text "restartPolicy", text "runtimeClassName",
      text "schedulerName",
      listOf "schedulingGates" (record "PodSchedulingGate" [needed "name"]),
      optional "securityContext" podSecurity, text "serviceAccount", text "serviceAccountName",
      flag "setHostnameAsFQDN", flag "shareProcessNamespace", text "subdomain",
      large "terminationGracePeriodSeconds",
      listOf "tolerations" (record "Toleration"
        [text "effect", text "key", text "operator", large "tolerationSeconds", text "value"]),
      listOf "topologySpreadConstraints" topologySpread, listOf "volumes" volume]

def template : Shape :=
  record "PodTemplateSpec"
    [optional "metadata" ObjectMeta.shape, optional "spec" spec]

end Pod

end ScheduledScaling
