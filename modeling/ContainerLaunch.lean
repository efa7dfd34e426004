import ContainerLaunch.CommandLine.Session
import ContainerLaunch.CommandLine.Snapshot
import ContainerLaunch.Handoff.Region
import ContainerLaunch.Mounts.Detaching
import ContainerLaunch.HostSide.Handshake
import ContainerLaunch.Launch.Prepare
import ContainerLaunch.Main
import ContainerLaunch.Proofs.AutofsPins
import ContainerLaunch.Proofs.BufferBounds
import ContainerLaunch.Proofs.DataBinds
import ContainerLaunch.Proofs.DescriptorOwnership
import ContainerLaunch.Proofs.DescriptorTable
import ContainerLaunch.Proofs.DroppedCapabilities
import ContainerLaunch.Proofs.EnforcedCapabilities
import ContainerLaunch.Proofs.FailedPreparation
import ContainerLaunch.Proofs.FakeSuperuser
import ContainerLaunch.Proofs.GivenUpPrivileges
import ContainerLaunch.Proofs.ImageAuthority
import ContainerLaunch.Proofs.ImageList
import ContainerLaunch.Proofs.InstanceProofs
import ContainerLaunch.Proofs.JoinGate
import ContainerLaunch.Proofs.JoinedGroups
import ContainerLaunch.Proofs.JoinedInstance
import ContainerLaunch.Proofs.JoinedKinds
import ContainerLaunch.Proofs.MountTable
import ContainerLaunch.Proofs.NamelessCallers
import ContainerLaunch.Proofs.NameLists
import ContainerLaunch.Proofs.NamespaceHistory
import ContainerLaunch.Proofs.NetworkAuthority
import ContainerLaunch.Proofs.NumberMaps
import ContainerLaunch.Proofs.OverlayModes
import ContainerLaunch.Proofs.PayloadReadBack
import ContainerLaunch.Proofs.RecordedPaths
import ContainerLaunch.Proofs.RestoredCapabilities
import ContainerLaunch.Proofs.ServedOverlays
import ContainerLaunch.Proofs.SuperuserCapabilities
import ContainerLaunch.Proofs.TableReadings
import ContainerLaunch.Proofs.TargetUsers
import ContainerLaunch.Proofs.TrustedInputs
import ContainerLaunch.Proofs.UsableRanges
import ContainerLaunch.Proofs.WritableOverlays
import ContainerLaunch.Proofs.WritableRoot
import ContainerLaunch.Proofs.Handoff.CreatedOrJoined
import ContainerLaunch.Proofs.Handoff.FailedPublication
import ContainerLaunch.Proofs.HostSide.Attempts
import ContainerLaunch.Proofs.HostSide.DetachedMount
import ContainerLaunch.Proofs.HostSide.Exchange
import ContainerLaunch.Proofs.HostSide.Settled
